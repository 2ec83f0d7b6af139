import ExactCover.RingTable
import Mathlib

/-! # Rings in a table

A path leads from one node to another when the links between neighbours on it point at each
other. A ring is a path from a node back to itself that meets no node twice. Rings say what a
table means: the operations on a table are described by what they do to its rings, and a table is
determined by its links, which unlinking a node of a ring and relinking it leaves as they were.
-/

namespace ExactCover.RingTable

variable {table other : RingTable} {a b c start : Node} {nodes rest : List Node}

/-- The links between two neighbours point at each other. -/
def Joined (table : RingTable) (a b : Node) : Prop :=
  table.nextOf a = b ∧ table.previousOf b = a

/-- Going forward from `a` one meets the nodes of the list in turn and then `b`, and going
    backward the other way round. -/
def Path (table : RingTable) (a : Node) : List Node → Node → Prop
  | [], b => table.Joined a b
  | x :: rest, b => table.Joined a x ∧ table.Path x rest b

theorem path_append : table.Path a (nodes ++ c :: rest) b ↔
    table.Path a nodes c ∧ table.Path c rest b := by
  induction nodes generalizing a with
  | nil => rfl
  | cons x nodes ih => simp only [List.cons_append, Path, ih, and_assoc]

theorem path_backward (h : table.Path a nodes b) : table.backward.Path b nodes.reverse a := by
  induction nodes generalizing a with
  | nil => exact ⟨h.2, h.1⟩
  | cons x nodes ih =>
      rw [List.reverse_cons, path_append]
      exact ⟨ih h.2, h.1.2, h.1.1⟩

theorem nextOf_mem_of_path (h : table.Path a nodes b) : table.nextOf a ∈ nodes ++ [b] := by
  cases nodes with
  | nil => exact List.mem_singleton.mpr h.1
  | cons x nodes => exact h.1.1 ▸ List.mem_cons_self

theorem previousOf_mem_of_path (h : table.Path a nodes b) : table.previousOf b ∈ a :: nodes := by
  have met := nextOf_mem_of_path (path_backward h)
  rw [nextOf_backward, List.mem_append, List.mem_reverse, List.mem_singleton] at met
  exact List.mem_cons.mpr met.symm

theorem nextOf_of_path (h : table.Path a nodes b) : table.nextOf a = nodes.headD b := by
  cases nodes with
  | nil => exact h.1
  | cons x nodes => exact h.1.1

theorem previousOf_of_path (h : table.Path a nodes b) : table.previousOf b = nodes.getLastD a := by
  have behind := nextOf_of_path (path_backward h)
  rw [nextOf_backward] at behind
  rw [behind, List.headD_eq_head?_getD, List.head?_reverse, List.getLastD_eq_getLast?]

theorem previous_next_of_path (h : table.Path a nodes b) :
    table.previousOf (table.nextOf a) = a := by
  cases nodes with
  | nil => exact h.1.symm ▸ h.2
  | cons x nodes => exact h.1.1.symm ▸ h.1.2

/-- A path is kept by a change of links that are not on it. -/
theorem path_congr (h : table.Path a nodes b)
    (ahead : ∀ x ∈ a :: nodes, other.nextOf x = table.nextOf x)
    (behind : ∀ x ∈ nodes ++ [b], other.previousOf x = table.previousOf x) :
    other.Path a nodes b := by
  induction nodes generalizing a with
  | nil => exact ⟨(ahead a (by simp)).trans h.1, (behind b (by simp)).trans h.2⟩
  | cons x nodes ih =>
      have joined := h.1
      refine ⟨⟨(ahead a (by simp)).trans joined.1, (behind x (by simp)).trans joined.2⟩, ?_⟩
      exact ih h.2 (fun y hy => ahead y (List.mem_cons_of_mem a hy))
        (fun y hy => behind y (List.mem_cons_of_mem x hy))

theorem walk_of_path (h : table.Path a nodes b) (absent : b ∉ nodes) {limit : Nat}
    (enough : nodes.length ≤ limit) : table.walk b limit (table.nextOf a) = nodes := by
  induction nodes generalizing a limit with
  | nil =>
      have met : table.nextOf a = b := h.1
      cases limit <;> simp [walk, met]
  | cons x nodes ih =>
      obtain ⟨differs, absent⟩ := not_or.mp (fun member => absent (List.mem_cons.mpr member))
      cases limit with
      | zero => simp at enough
      | succ limit =>
          have met : table.nextOf a = x := h.1.1
          simp only [walk, met, if_neg (Ne.symm differs)]
          rw [ih h.2 absent (by simpa using enough)]

/-- Nodes that are linked in a circle, seen from one of them. -/
structure IsRing (table : RingTable) (start : Node) (others : List Node) : Prop where
  path : table.Path start others start
  distinct : (start :: others).Nodup
  inside : ∀ x ∈ start :: others, x < table.size

/-- A node of the table to which both of its neighbours lead back. -/
structure Held (table : RingTable) (b : Node) : Prop where
  inside : b < table.size
  previous_inside : table.previousOf b < table.size
  next_inside : table.nextOf b < table.size
  next_previous : table.nextOf (table.previousOf b) = b
  previous_next : table.previousOf (table.nextOf b) = b

theorem Held.check_eq_ok (h : table.Held b) : table.check b = .ok () := by
  simp only [check, if_pos h.inside, if_pos h.previous_inside, if_pos h.next_inside]

theorem lt_of_check (run : table.check b = .ok ()) : b < table.size := by
  unfold check at run
  split at run
  · assumption
  · cases run

namespace IsRing

theorem rotate (h : table.IsRing start (nodes ++ b :: rest)) :
    table.IsRing b (rest ++ start :: nodes) := by
  have parts := path_append.mp h.path
  have same : ((start :: nodes) ++ (b :: rest)).Perm ((b :: rest) ++ (start :: nodes)) :=
    List.perm_append_comm
  exact ⟨path_append.mpr ⟨parts.2, parts.1⟩, same.nodup_iff.mp h.distinct,
    fun x hx => h.inside x (same.mem_iff.mpr hx)⟩

theorem backward (h : table.IsRing start nodes) :
    table.backward.IsRing start nodes.reverse where
  path := path_backward h.path
  distinct := by simpa using h.distinct
  inside := fun x hx => size_backward table ▸ h.inside x (by simpa using hx)

theorem previousOf_mem (h : table.IsRing start nodes) : table.previousOf start ∈ start :: nodes :=
  previousOf_mem_of_path h.path

theorem nextOf_mem (h : table.IsRing start nodes) : table.nextOf start ∈ start :: nodes := by
  simpa [or_comm] using nextOf_mem_of_path h.path

theorem held_start (h : table.IsRing start nodes) : table.Held start where
  inside := h.inside _ List.mem_cons_self
  previous_inside := h.inside _ h.previousOf_mem
  next_inside := h.inside _ h.nextOf_mem
  next_previous := previous_next_of_path (path_backward h.path)
  previous_next := previous_next_of_path h.path

theorem held (h : table.IsRing start nodes) (member : b ∈ start :: nodes) : table.Held b := by
  rcases List.mem_cons.mp member with rfl | member
  · exact h.held_start
  · obtain ⟨left, right, rfl⟩ := List.append_of_mem member
    exact h.rotate.held_start

theorem ring_eq (h : table.IsRing start nodes) : table.ring start = .ok nodes := by
  have held := h.held_start
  have short : nodes.length < table.size := by
    have within : start :: nodes ⊆ List.range table.size :=
      fun x hx => List.mem_range.mpr (h.inside x hx)
    simpa using (List.subperm_of_subset h.distinct within).length_le
  have absent : start ∉ nodes := (List.nodup_cons.mp h.distinct).1
  simp only [ring, held.check_eq_ok, walk_of_path h.path absent short.le, bind, Except.bind,
    if_pos short]

theorem unique (one : table.IsRing start nodes) (two : table.IsRing start rest) : nodes = rest :=
  Except.ok.inj (one.ring_eq.symm.trans two.ring_eq)

/-- A ring seen from any of its nodes. -/
theorem seen_from (h : table.IsRing start nodes) (member : b ∈ start :: nodes) :
    ∃ others, table.IsRing b others ∧ (b :: others).Perm (start :: nodes) := by
  rcases List.mem_cons.mp member with rfl | member
  · exact ⟨nodes, h, List.Perm.refl _⟩
  · obtain ⟨left, right, rfl⟩ := List.append_of_mem member
    have same : ((b :: right) ++ (start :: left)).Perm ((start :: left) ++ (b :: right)) :=
      List.perm_append_comm
    exact ⟨right ++ start :: left, h.rotate, same⟩

/-- Rings that share a node have the same nodes. -/
theorem perm_of_mem (one : table.IsRing a nodes) (two : table.IsRing c rest)
    (met : b ∈ a :: nodes) (also : b ∈ c :: rest) : (a :: nodes).Perm (c :: rest) := by
  obtain ⟨others, ring, same⟩ := one.seen_from met
  obtain ⟨others', ring', same'⟩ := two.seen_from also
  rw [ring.unique ring'] at same
  exact same.symm.trans same'

theorem disjoint (h : table.IsRing start nodes) (home : table.IsRing b rest)
    (apart : b ∉ start :: nodes) : List.Disjoint (b :: rest) (start :: nodes) :=
  fun _ met also => apart ((home.perm_of_mem h met also).mem_iff.mp List.mem_cons_self)

end IsRing

/-! ### Unlinking and relinking -/

theorem nextOf_unlink (h : table.Held b) (x : Node) :
    (table.unlink b).nextOf x = if x = table.previousOf b then table.nextOf b else table.nextOf x := by
  have inside : table.previousOf b < table.next.size := h.previous_inside
  simp only [nextOf, unlink, Array.getD_eq_getD_getElem?, Array.getElem?_setIfInBounds, if_pos inside]
  split <;> simp_all [eq_comm]

theorem previousOf_unlink (h : table.Held b) (x : Node) :
    (table.unlink b).previousOf x =
      if x = table.nextOf b then table.previousOf b else table.previousOf x := by
  have inside : table.nextOf b < table.previous.size := table.size_eq ▸ h.next_inside
  simp only [previousOf, unlink, Array.getD_eq_getD_getElem?, Array.getElem?_setIfInBounds, if_pos inside]
  split <;> simp_all [eq_comm]

theorem ext_links (ahead : table.next = other.next) (behind : table.previous = other.previous) :
    table = other := by
  cases table
  cases other
  cases ahead
  cases behind
  rfl

/-- A node keeps its own neighbours when it is unlinked, also when it is one of them. -/
theorem nextOf_unlink_self (h : table.Held b) : (table.unlink b).nextOf b = table.nextOf b := by
  rw [nextOf_unlink h]
  split <;> rfl

theorem previousOf_unlink_self (h : table.Held b) :
    (table.unlink b).previousOf b = table.previousOf b := by
  rw [previousOf_unlink h]
  split <;> rfl

theorem check_unlink_self (h : table.Held b) : (table.unlink b).check b = .ok () := by
  simp only [check, size_unlink, nextOf_unlink_self h, previousOf_unlink_self h, if_pos h.inside,
    if_pos h.previous_inside, if_pos h.next_inside]

theorem setIfInBounds_same {α : Type} {values : Array α} {i : Nat} {value : α}
    (h : ∀ found, values[i]? = some found → found = value) :
    values.setIfInBounds i value = values := by
  apply Array.ext_getElem?
  intro j
  rw [Array.getElem?_setIfInBounds]
  split
  · subst j
    split
    · rename_i inside
      have found := Array.getElem?_eq_getElem inside
      rw [found, h _ found]
    · simp_all
  · rfl

/-- Relinking a node restores every link of the table. -/
theorem relink_unlink (h : table.Held b) : (table.unlink b).relink b = table := by
  apply ext_links
  · change (table.next.setIfInBounds _ _).setIfInBounds ((table.unlink b).previousOf b) b = _
    rw [previousOf_unlink_self h, Array.setIfInBounds_setIfInBounds]
    exact setIfInBounds_same fun found hf => by simpa [nextOf, hf] using h.next_previous
  · change (table.previous.setIfInBounds _ _).setIfInBounds ((table.unlink b).nextOf b) b = _
    rw [nextOf_unlink_self h, Array.setIfInBounds_setIfInBounds]
    exact setIfInBounds_same fun found hf => by simpa [previousOf, hf] using h.previous_next

/-- A path through a node closes over the gap that the node leaves. -/
theorem path_unlink (held : table.Held b) (before : table.Path a nodes b)
    (after : table.Path b rest c) (distinct : (a :: (nodes ++ rest)).Nodup)
    (fresh : c ∉ nodes ++ rest) : (table.unlink b).Path a (nodes ++ rest) c := by
  induction nodes generalizing a with
  | nil =>
      have behind : table.previousOf b = a := before.2
      cases rest with
      | nil =>
          have ahead : table.nextOf b = c := after.1
          exact ⟨by simp [nextOf_unlink held, behind, ahead],
            by simp [previousOf_unlink held, behind, ahead]⟩
      | cons y rest =>
          have ahead : table.nextOf b = y := after.1.1
          simp only [List.nil_append, List.nodup_cons, List.mem_cons, not_or] at distinct fresh
          refine ⟨⟨by simp [nextOf_unlink held, behind, ahead],
            by simp [previousOf_unlink held, behind, ahead]⟩, ?_⟩
          apply path_congr after.2
          · intro x hx
            have differs : x ≠ a := fun same => by
              subst same
              rcases List.mem_cons.mp hx with rfl | hx
              · exact distinct.1.1 rfl
              · exact distinct.1.2 hx
            rw [nextOf_unlink held, behind, if_neg differs]
          · intro x hx
            have differs : x ≠ y := fun same => by
              subst same
              rcases List.mem_append.mp hx with hx | hx
              · exact distinct.2.1 hx
              · exact fresh.1 (List.mem_singleton.mp hx).symm
            rw [previousOf_unlink held, ahead, if_neg differs]
  | cons x nodes ih =>
      have behind := previousOf_mem_of_path before.2
      have ahead := nextOf_mem_of_path after
      obtain ⟨absent, distinct⟩ := List.nodup_cons.mp distinct
      obtain ⟨differs, fresh⟩ := not_or.mp (fun member => fresh (List.mem_cons.mpr member))
      refine ⟨⟨?_, ?_⟩, ih before.2 distinct fresh⟩
      · have apart : a ≠ table.previousOf b := fun same =>
          absent (List.mem_append_left rest (same ▸ behind))
        rw [nextOf_unlink held, if_neg apart, before.1.1]
      · have apart : x ≠ table.nextOf b := fun same => by
          rcases List.mem_append.mp (same ▸ ahead) with met | met
          · exact (List.nodup_cons.mp distinct).1 (List.mem_append_right nodes met)
          · exact differs (List.mem_singleton.mp met).symm
        rw [previousOf_unlink held, if_neg apart, before.1.2]

namespace IsRing

/-- Unlinking takes one node out of its ring and keeps the order of the others. -/
theorem unlink (h : table.IsRing start (nodes ++ b :: rest)) :
    (table.unlink b).IsRing start (nodes ++ rest) := by
  have held := h.held (b := b) (by simp)
  have parts := path_append.mp h.path
  have shorter : (start :: (nodes ++ rest)).Sublist (start :: (nodes ++ b :: rest)) := by simp
  have distinct := h.distinct.sublist shorter
  exact ⟨path_unlink held parts.1 parts.2 distinct (List.nodup_cons.mp distinct).1, distinct,
    fun x hx => size_unlink table b ▸ h.inside x (shorter.mem hx)⟩

/-- Unlinking a node leaves the rings that it is not in. -/
theorem unlink_other (h : table.IsRing start nodes) {first : Node}
    (home : table.IsRing first rest) (member : b ∈ first :: rest)
    (apart : List.Disjoint (first :: rest) (start :: nodes)) :
    (table.unlink b).IsRing start nodes := by
  have held := home.held member
  obtain ⟨others, turned, same⟩ := home.seen_from member
  have near := same.mem_iff.mp turned.previousOf_mem
  have far := same.mem_iff.mp turned.nextOf_mem
  refine ⟨path_congr h.path ?_ ?_, h.distinct, fun x hx => size_unlink table b ▸ h.inside x hx⟩
  · intro x hx
    have differs : x ≠ table.previousOf b := fun same => apart near (same ▸ hx)
    rw [nextOf_unlink held, if_neg differs]
  · intro x hx
    have differs : x ≠ table.nextOf b := fun same => apart far (same ▸ (by simpa [or_comm] using hx))
    rw [previousOf_unlink held, if_neg differs]

end IsRing

/-! ### Adding nodes -/

theorem nextOf_alloc (x : Node) : table.alloc.nextOf x = table.nextOf x := by
  simp only [nextOf, alloc, Array.getD_eq_getD_getElem?, Array.getElem?_push]
  split <;> simp_all

theorem previousOf_alloc (x : Node) : table.alloc.previousOf x = table.previousOf x := by
  simp only [previousOf, alloc, Array.getD_eq_getD_getElem?, Array.getElem?_push, ← table.size_eq]
  split <;> simp_all

theorem nextOf_insertAfter (ha : a < table.size) (hb : b < table.size) (x : Node) :
    (table.insertAfter a b).nextOf x =
      if x = a then b else if x = b then table.nextOf a else table.nextOf x := by
  have ha : a < table.next.size := ha
  have hb : b < table.next.size := hb
  simp only [nextOf, insertAfter, Array.getD_eq_getD_getElem?, Array.getElem?_setIfInBounds,
    Array.size_setIfInBounds, if_pos ha, if_pos hb]
  split
  · simp_all
  · split <;> simp_all [eq_comm]

theorem previousOf_insertAfter (hb : b < table.size) (hc : table.nextOf a < table.size)
    (x : Node) : (table.insertAfter a b).previousOf x =
      if x = table.nextOf a then b else if x = b then a else table.previousOf x := by
  have hb : b < table.previous.size := table.size_eq ▸ hb
  have hc : table.nextOf a < table.previous.size := table.size_eq ▸ hc
  simp only [previousOf, insertAfter, Array.getD_eq_getD_getElem?, Array.getElem?_setIfInBounds,
    Array.size_setIfInBounds, if_pos hb, if_pos hc]
  split
  · simp_all
  · split <;> simp_all [eq_comm]

namespace IsRing

theorem alloc (h : table.IsRing start nodes) : table.alloc.IsRing start nodes where
  path := path_congr h.path (fun x _ => nextOf_alloc x) (fun x _ => previousOf_alloc x)
  distinct := h.distinct
  inside := fun x hx => size_alloc table ▸ Nat.lt_succ_of_lt (h.inside x hx)

theorem alloc_size (table : RingTable) : table.alloc.IsRing table.size [] where
  path := by
    refine ⟨(nextOf_alloc _).trans ?_, (previousOf_alloc _).trans ?_⟩
    · simp [nextOf, size]
    · simp [previousOf, size, table.size_eq]
  distinct := List.nodup_singleton _
  inside := by simp [size_alloc]

/-- A new node comes directly after the one that it is put after, and the order of the others is
    kept. -/
theorem insertAfter (h : table.IsRing a nodes) (alone : b < table.size) (fresh : b ∉ a :: nodes) :
    (table.insertAfter a b).IsRing a (b :: nodes) := by
  have held := h.held_start
  have next := nextOf_insertAfter held.inside alone
  have previous := previousOf_insertAfter alone held.next_inside
  obtain ⟨apart, absent⟩ := not_or.mp (fun member => fresh (List.mem_cons.mpr member))
  obtain ⟨single, distinct⟩ := List.nodup_cons.mp h.distinct
  refine ⟨⟨⟨by simp [next], ?_⟩, ?_⟩, ?_, ?_⟩
  · cases nodes with
    | nil =>
        have ahead : table.nextOf a = a := h.path.1
        simp [previous, ahead, apart]
    | cons y rest =>
        have ahead : table.nextOf a = y := h.path.1.1
        have differs : b ≠ y := fun same => absent (same ▸ List.mem_cons_self)
        simp [previous, ahead, differs]
  · cases nodes with
    | nil =>
        have ahead : table.nextOf a = a := h.path.1
        exact ⟨by simp [next, ahead, apart], by simp [previous, ahead]⟩
    | cons y rest =>
        have ahead : table.nextOf a = y := h.path.1.1
        refine ⟨⟨by simp [next, ahead, apart], by simp [previous, ahead]⟩, ?_⟩
        apply path_congr h.path.2
        · intro x hx
          have hxa : x ≠ a := fun same => single (same ▸ hx)
          have hxb : x ≠ b := fun same => absent (same ▸ hx)
          simp [next, hxa, hxb]
        · intro x hx
          have hxy : x ≠ y := fun same => by
            subst same
            rcases List.mem_append.mp hx with hx | hx
            · exact (List.nodup_cons.mp distinct).1 hx
            · exact single (List.mem_singleton.mp hx ▸ List.mem_cons_self)
          have hxb : x ≠ b := fun same => by
            subst same
            rcases List.mem_append.mp hx with hx | hx
            · exact absent (List.mem_cons_of_mem y hx)
            · exact apart (List.mem_singleton.mp hx)
          simp [previous, ahead, hxy, hxb]
  · have order : (a :: b :: nodes).Perm (b :: a :: nodes) := List.Perm.swap b a nodes
    exact order.nodup_iff.mpr (List.nodup_cons.mpr ⟨fresh, h.distinct⟩)
  · intro x hx
    rw [size_insertAfter]
    rcases List.mem_cons.mp hx with rfl | hx
    · exact held.inside
    · rcases List.mem_cons.mp hx with rfl | hx
      · exact alone
      · exact h.inside x (List.mem_cons_of_mem a hx)

/-- The ring seen from the node before its start. -/
theorem from_previous (h : table.IsRing start nodes) :
    ∃ others, table.IsRing (table.previousOf start) others ∧
      (table.previousOf start :: others).Perm (start :: nodes) ∧
      ∀ (other : RingTable) (b : Node), other.IsRing (table.previousOf start) ([b] ++ others) →
        other.IsRing start (nodes ++ [b]) := by
  rcases List.eq_nil_or_concat nodes with rfl | ⟨left, last, rfl⟩
  · have behind : table.previousOf start = start := h.path.2
    rw [behind]
    exact ⟨[], h, List.Perm.refl _, fun _ _ inserted => inserted⟩
  · rw [List.concat_eq_append] at h ⊢
    have behind : table.previousOf start = last := (path_append.mp h.path).2.2
    rw [behind]
    refine ⟨start :: left, h.rotate, ?_, fun other b inserted => ?_⟩
    · exact (List.perm_append_singleton last (start :: left)).symm
    · rw [List.append_assoc]
      exact inserted.rotate

/-- A new node that is put after the last one comes at the end. -/
theorem insertAfter_last (h : table.IsRing start nodes) (alone : b < table.size)
    (fresh : b ∉ start :: nodes) :
    (table.insertAfter (table.previousOf start) b).IsRing start (nodes ++ [b]) := by
  obtain ⟨others, turned, same, back⟩ := h.from_previous
  exact back _ b (turned.insertAfter alone fun member => fresh (same.mem_iff.mp member))

/-- Putting a node into a ring leaves the rings that neither is in. -/
theorem insertAfter_other (h : table.IsRing start nodes) (home : table.IsRing a rest)
    (alone : b < table.size) (absent : b ∉ start :: nodes)
    (apart : List.Disjoint (a :: rest) (start :: nodes)) :
    (table.insertAfter a b).IsRing start nodes := by
  have held := home.held_start
  refine ⟨path_congr h.path ?_ ?_, h.distinct,
    fun x hx => size_insertAfter table _ b ▸ h.inside x hx⟩
  · intro x hx
    have hxa : x ≠ a := fun same => apart (same ▸ List.mem_cons_self) hx
    have hxb : x ≠ b := fun same => absent (same ▸ hx)
    rw [nextOf_insertAfter held.inside alone, if_neg hxa, if_neg hxb]
  · intro x hx
    have member : x ∈ start :: nodes := by simpa [or_comm] using hx
    have hxc : x ≠ table.nextOf a := fun same => apart home.nextOf_mem (same ▸ member)
    have hxb : x ≠ b := fun same => absent (same ▸ member)
    rw [previousOf_insertAfter alone held.next_inside, if_neg hxc, if_neg hxb]

theorem insertAfter_last_other (h : table.IsRing start nodes) {first : Node}
    (home : table.IsRing first rest) (alone : b < table.size) (absent : b ∉ start :: nodes)
    (apart : List.Disjoint (first :: rest) (start :: nodes)) :
    (table.insertAfter (table.previousOf first) b).IsRing start nodes := by
  obtain ⟨others, turned, same, _⟩ := home.from_previous
  exact h.insertAfter_other turned alone absent fun x met => apart (same.mem_iff.mp met)

end IsRing

end ExactCover.RingTable
