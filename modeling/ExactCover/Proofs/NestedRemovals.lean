import ExactCover.Proofs.Ring

/-! # Nodes taken out of their rings and put back

A table is built from nodes that are rings of their own at first, by putting such nodes into the
rings of others. Every node of it then stands in exactly one ring.

Nodes may be taken out of their rings, and the last one that is out may be put back. A node that is
out keeps pointing at the neighbours that it had, whichever of them are taken out after it, and when
its turn comes to be put back these are its neighbours again. So the ring of a node that is not out
is the one that it had at first, without the nodes that are out.
-/

namespace ExactCover.RingTable

variable {whole table under after : RingTable} {a b x y : Node} {nodes rest out : List Node}

/-! ### Rings of lone nodes -/

theorem lt_of_ring (run : table.ring x = .ok nodes) : x < table.size := by
  obtain ⟨_, known, _⟩ := exists_of_bind_eq_ok run
  exact lt_of_check known

theorem insertAfterChecked_eq_ok (run : table.insertAfterChecked a b = .ok after) :
    a < table.size ∧ b < table.size ∧ after = table.insertAfter a b := by
  obtain ⟨_, first, run⟩ := exists_of_bind_eq_ok run
  obtain ⟨_, second, run⟩ := exists_of_bind_eq_ok run
  exact ⟨lt_of_check first, lt_of_check second, (Except.ok.inj run).symm⟩

theorem unlinkChecked_eq_ok (run : table.unlinkChecked b = .ok after) :
    b < table.size ∧ after = table.unlink b := by
  obtain ⟨_, known, run⟩ := exists_of_bind_eq_ok run
  exact ⟨lt_of_check known, (Except.ok.inj run).symm⟩

theorem relinkChecked_eq_ok (run : table.relinkChecked b = .ok after) :
    after = table.relink b := by
  obtain ⟨_, _, run⟩ := exists_of_bind_eq_ok run
  exact (Except.ok.inj run).symm

theorem Held.unlinkChecked_eq (h : table.Held b) :
    table.unlinkChecked b = .ok (table.unlink b) := by
  simp only [unlinkChecked, h.check_eq_ok, bind, Except.bind, pure, Except.pure]

theorem Held.relinkChecked_eq (h : table.Held b) :
    (table.unlink b).relinkChecked b = .ok table := by
  simp only [relinkChecked, check_unlink_self h, relink_unlink h, bind, Except.bind, pure,
    Except.pure]

namespace IsRing

theorem of_ring (h : table.IsRing x rest) (run : table.ring x = .ok nodes) :
    table.IsRing x nodes := by
  obtain rfl := Except.ok.inj (h.ring_eq.symm.trans run)
  exact h

theorem eq_nil_of_isAlone (h : table.IsRing b rest) (alone : table.isAlone b = true) :
    rest = [] := by
  have ahead := nextOf_of_path h.path
  rw [beq_iff_eq.mp alone] at ahead
  cases rest with
  | nil => rfl
  | cons first rest =>
      have absent := (List.nodup_cons.mp h.distinct).1
      exact absurd (ahead ▸ List.mem_cons_self) absent

/-- A node that is a ring of its own stands in no other ring. -/
theorem notMem_of_alone (h : table.IsRing x nodes) (home : table.IsRing b []) (differs : x ≠ b) :
    b ∉ x :: nodes := by
  intro met
  have same := h.perm_of_mem home met List.mem_cons_self
  exact differs (List.mem_singleton.mp (same.mem_iff.mp List.mem_cons_self))

/-- A lone node that is put after `a` comes directly after it, seen from any node of the ring. -/
theorem insertAfter_within {left right : List Node} (h : table.IsRing x nodes)
    (split : x :: nodes = left ++ a :: right) (inside : b < table.size) (fresh : b ∉ x :: nodes) :
    ∃ more, (table.insertAfter a b).IsRing x more ∧ x :: more = left ++ a :: b :: right := by
  cases left with
  | nil =>
      obtain ⟨rfl, rfl⟩ := List.cons.inj split
      exact ⟨b :: nodes, h.insertAfter inside fresh, rfl⟩
  | cons first left =>
      obtain ⟨rfl, rfl⟩ := List.cons.inj split
      have same : ((x :: left) ++ (a :: right)).Perm ((a :: right) ++ (x :: left)) :=
        List.perm_append_comm
      have turned := h.rotate.insertAfter inside fun member => fresh (same.mem_iff.mpr member)
      rw [← List.cons_append] at turned
      exact ⟨left ++ a :: b :: right, turned.rotate, rfl⟩

/-- Unlinking takes a node out of its ring and leaves all other rings. -/
theorem unlink_erase (h : table.IsRing x nodes) (home : table.IsRing b rest) (differs : x ≠ b) :
    (table.unlink b).IsRing x (nodes.erase b) := by
  by_cases member : b ∈ nodes
  · obtain ⟨left, right, rfl, absent⟩ := List.eq_append_cons_of_mem member
    rw [List.erase_append_right _ absent, List.erase_cons_head]
    exact h.unlink
  · have apart : b ∉ x :: nodes := fun met =>
      (List.mem_cons.mp met).elim (fun same => differs same.symm) member
    rw [List.erase_of_not_mem member]
    exact h.unlink_other home List.mem_cons_self (h.disjoint home apart)

end IsRing

/-! ### Tables that are built -/

/-- The tables built by adding nodes and by putting lone nodes after others. -/
inductive Built : RingTable → Prop where
  | empty : Built empty
  | alloc {table : RingTable} (before : Built table) : Built table.alloc
  | insertAfter {table after : RingTable} {a b : Node} (before : Built table)
      (alone : table.isAlone b = true) (apart : a ≠ b)
      (run : table.insertAfterChecked a b = .ok after) : Built after

theorem Built.isRing (h : Built table) (inside : x < table.size) :
    ∃ nodes, table.IsRing x nodes := by
  induction h generalizing x with
  | empty => exact absurd inside (Nat.not_lt_zero x)
  | alloc _ ih =>
      rw [size_alloc] at inside
      rcases Nat.lt_succ_iff_lt_or_eq.mp inside with old | rfl
      · obtain ⟨nodes, ring⟩ := ih old
        exact ⟨nodes, ring.alloc⟩
      · exact ⟨[], IsRing.alloc_size _⟩
  | @insertAfter table _ a b _ alone apart run ih =>
      obtain ⟨ha, hb, rfl⟩ := insertAfterChecked_eq_ok run
      rw [size_insertAfter] at inside
      obtain ⟨nodes, ring⟩ := ih ha
      obtain ⟨rest, home⟩ := ih hb
      obtain rfl := home.eq_nil_of_isAlone alone
      have joined := ring.insertAfter hb (ring.notMem_of_alone home apart)
      by_cases member : x ∈ a :: b :: nodes
      · obtain ⟨others, seen, _⟩ := joined.seen_from member
        exact ⟨others, seen⟩
      · obtain ⟨others, own⟩ := ih inside
        simp only [List.mem_cons, not_or] at member
        have away : a ∉ x :: others := fun met => by
          have same := (own.perm_of_mem ring met List.mem_cons_self).mem_iff (a := x)
          simp [member] at same
        exact ⟨others, own.insertAfter_other ring hb (own.notMem_of_alone home member.2.1)
          (own.disjoint ring away)⟩

/-- A lone node has been put directly after `a`, and the order of no other ring has changed. -/
structure PutsAfter (table : RingTable) (a b : Node) (after : RingTable) : Prop where
  within : ∀ x nodes left right, table.ring x = .ok nodes → x :: nodes = left ++ a :: right →
    ∃ more, after.ring x = .ok more ∧ x :: more = left ++ a :: b :: right
  elsewhere : ∀ x nodes, x ≠ b → table.ring x = .ok nodes → a ∉ x :: nodes →
    after.ring x = .ok nodes

theorem Built.putsAfter (h : Built table) (ha : a < table.size) (hb : b < table.size)
    (apart : a ≠ b) (alone : table.isAlone b = true) :
    ∃ after, table.insertAfterChecked a b = .ok after ∧ table.PutsAfter a b after := by
  obtain ⟨nodes, ring⟩ := h.isRing ha
  obtain ⟨rest, home⟩ := h.isRing hb
  obtain rfl := home.eq_nil_of_isAlone alone
  refine ⟨table.insertAfter a b, ?_, ?_, ?_⟩
  · simp only [insertAfterChecked, ring.held_start.check_eq_ok, home.held_start.check_eq_ok, bind,
      Except.bind, pure, Except.pure]
  · intro x nodes left right run split
    obtain ⟨own, known⟩ := h.isRing (lt_of_ring run)
    have own := known.of_ring run
    have differs : x ≠ b := by
      rintro rfl
      obtain rfl := own.eq_nil_of_isAlone alone
      have member : a ∈ [x] := split ▸ List.mem_append_right left List.mem_cons_self
      exact apart (List.mem_singleton.mp member)
    obtain ⟨more, joined, order⟩ :=
      own.insertAfter_within split hb (own.notMem_of_alone home differs)
    exact ⟨more, joined.ring_eq, order⟩
  · intro x nodes differs run away
    obtain ⟨own, known⟩ := h.isRing (lt_of_ring run)
    have own := known.of_ring run
    exact (own.insertAfter_other ring hb (own.notMem_of_alone home differs)
      (own.disjoint ring away)).ring_eq

/-! ### Nodes that are out -/

/-- The tables that come from a whole one by unlinking nodes that are not out and relinking the last
    one that is. Listed are the nodes that are out, the last one first. -/
inductive Thinned (whole : RingTable) : List Node → RingTable → Prop where
  | whole : Thinned whole [] whole
  | unlink {out : List Node} {b : Node} {table after : RingTable}
      (before : Thinned whole out table) (linked : b ∉ out)
      (run : table.unlinkChecked b = .ok after) : Thinned whole (b :: out) after
  | relink {out : List Node} {b : Node} {table after : RingTable}
      (before : Thinned whole (b :: out) table) (run : table.relinkChecked b = .ok after) :
      Thinned whole out after

/-- The table comes from a whole one by unlinking nodes only. -/
inductive Removed (whole : RingTable) : List Node → RingTable → Prop where
  | whole : Removed whole [] whole
  | unlink {out : List Node} {b : Node} {under : RingTable} (below : Removed whole out under)
      (linked : b ∉ out) (held : under.Held b) : Removed whole (b :: out) (under.unlink b)

namespace Removed

theorem size_eq (h : Removed whole out table) : table.size = whole.size := by
  induction h with
  | whole => rfl
  | unlink _ _ _ ih => exact (size_unlink _ _).trans ih

/-- A node that is not out has kept its ring, without the nodes that are out. -/
theorem isRing (h : Removed whole out table) (built : Built whole) (own : whole.IsRing x nodes)
    (linked : x ∉ out) : table.IsRing x (nodes.filter (· ∉ out)) := by
  induction h generalizing x nodes with
  | whole => simpa using own
  | @unlink out b under below absent held ih =>
      obtain ⟨differs, linked⟩ := not_or.mp (fun met => linked (List.mem_cons.mpr met))
      obtain ⟨members, home⟩ := built.isRing (below.size_eq ▸ held.inside)
      have now := ih own linked
      have distinct := (List.nodup_cons.mp now.distinct).2
      have fewer : nodes.filter (· ∉ b :: out) = (nodes.filter (· ∉ out)).erase b := by
        rw [distinct.erase_eq_filter, List.filter_filter]
        refine List.filter_congr fun y _ => ?_
        rw [Bool.eq_iff_iff]
        simp
      rw [fewer]
      exact now.unlink_erase (ih home absent) differs

theorem exists_isRing (h : Removed whole out table) (built : Built whole) (inside : x < table.size)
    (linked : x ∉ out) : ∃ members, whole.IsRing x members ∧
      table.IsRing x (members.filter (· ∉ out)) := by
  obtain ⟨members, own⟩ := built.isRing (h.size_eq ▸ inside)
  exact ⟨members, own, h.isRing built own linked⟩

end Removed

/-- A node that is put back has been taken out last, so it finds its neighbours as it left them. -/
theorem Thinned.removed (h : Thinned whole out table) (built : Built whole) :
    Removed whole out table := by
  induction h with
  | whole => exact .whole
  | unlink _ linked run ih =>
      obtain ⟨inside, rfl⟩ := unlinkChecked_eq_ok run
      obtain ⟨_, _, ring⟩ := ih.exists_isRing built inside linked
      exact .unlink ih linked ring.held_start
  | relink _ run ih =>
      obtain rfl := relinkChecked_eq_ok run
      cases ih with
      | unlink below _ held =>
          rw [relink_unlink held]
          exact below

/-- Taking a node out of its ring, or putting it back. -/
inductive Move where
  | unlink (b : Node)
  | relink (b : Node)

def move (table : RingTable) : Move → Except Fault RingTable
  | .unlink b => table.unlinkChecked b
  | .relink b => table.relinkChecked b

/-- The table after moves that are made one after the other. -/
def moveAll (table : RingTable) (moves : List Move) : Except Fault RingTable :=
  moves.foldlM move table

/-- Moves of a table of this size in which every node that is taken out is put back by its own
    move, with bracketed moves between the two, when some nodes are out already. -/
inductive Bracketed (size : Nat) : List Node → List Move → Prop where
  | nil {out : List Node} : Bracketed size out []
  | cons {out : List Node} {b : Node} {inner rest : List Move} (inside : b < size)
      (linked : b ∉ out) (between : Bracketed size (b :: out) inner)
      (after : Bracketed size out rest) :
      Bracketed size out (.unlink b :: inner ++ .relink b :: rest)

theorem Removed.moveAll_bracketed {moves : List Move} (h : Removed whole out table)
    (built : Built whole) (bracketed : Bracketed table.size out moves) :
    table.moveAll moves = .ok table := by
  generalize known : table.size = size at bracketed
  induction bracketed generalizing table with
  | nil => rfl
  | @cons out b inner rest inside linked _ _ ih ih' =>
      obtain ⟨_, _, ring⟩ := h.exists_isRing built (known ▸ inside) linked
      have held := ring.held_start
      have between := ih (.unlink h linked held) ((size_unlink table b).trans known)
      have further := ih' h known
      simp only [moveAll] at between further ⊢
      simp only [List.cons_append, List.foldlM_cons, List.foldlM_append, move,
        held.unlinkChecked_eq, between, held.relinkChecked_eq, further, bind, Except.bind]

/-! ### What a table shows -/

theorem iterate_of_path (h : table.Path a nodes b) :
    a :: nodes = List.iterate table.nextOf a (nodes.length + 1) ∧
      table.nextOf^[nodes.length + 1] a = b := by
  induction nodes generalizing a with
  | nil => exact ⟨rfl, h.1⟩
  | cons x nodes ih =>
      have ahead : table.nextOf a = x := h.1.1
      obtain ⟨order, ends⟩ := ih h.2
      constructor
      · rw [List.length_cons, List.iterate, ahead, ← order]
      · rw [List.length_cons, Function.iterate_succ_apply, ahead]
        exact ends

/-- Going forward from a node one meets the others in turn, each of them once, and then the node
    again. -/
structure Circle (table : RingTable) (x : Node) (nodes : List Node) : Prop where
  once : (x :: nodes).Nodup
  order : x :: nodes = List.iterate table.nextOf x (nodes.length + 1)
  closed : table.nextOf^[nodes.length + 1] x = x
  whole : ∀ y, y ∈ x :: nodes ↔ ∃ steps, table.nextOf^[steps] x = y

theorem IsRing.circle (h : table.IsRing x nodes) : table.Circle x nodes := by
  obtain ⟨order, closed⟩ := iterate_of_path h.path
  refine ⟨h.distinct, order, closed, fun y => ?_⟩
  rw [order, List.mem_iterate]
  constructor
  · rintro ⟨steps, _, rfl⟩
    exact ⟨steps, rfl⟩
  · rintro ⟨steps, rfl⟩
    have period : Function.IsPeriodicPt table.nextOf (nodes.length + 1) x := closed
    exact ⟨steps % (nodes.length + 1), Nat.mod_lt _ (Nat.succ_pos _),
      (period.iterate_mod_apply steps).symm⟩

/-- A node of the table that is not out. -/
def Linked (table : RingTable) (out : List Node) (x : Node) : Prop := x < table.size ∧ x ∉ out

/-- What a table shows of the nodes that are not out. -/
structure ShowsLinked (whole table : RingTable) (out : List Node) : Prop where
  inverse : ∀ x, table.Linked out x →
    (table.Linked out (table.nextOf x) ∧ table.previousOf (table.nextOf x) = x) ∧
      table.Linked out (table.previousOf x) ∧ table.nextOf (table.previousOf x) = x
  /-- The walk around a ring comes to an end, and meets those that are left of the first ring. -/
  ring : ∀ x, table.Linked out x → ∃ nodes, table.ring x = .ok nodes ∧ table.Circle x nodes ∧
    (∀ y ∈ nodes, table.Linked out y) ∧
    ∃ members, whole.ring x = .ok members ∧ nodes = members.filter (· ∉ out)
  /-- Only the node taken out leaves its ring, and all others keep their order. -/
  unlink : ∀ b, table.Linked out b → ∃ after, table.unlinkChecked b = .ok after ∧
    ∀ x nodes, table.Linked out x → x ≠ b → table.ring x = .ok nodes →
      after.ring x = .ok (nodes.erase b)
  /-- The last node that is out can be put back. -/
  relink : ∀ b rest, out = b :: rest → ∃ after, table.relinkChecked b = .ok after
  /-- Every link is as before after moves in which every unlinking is undone. -/
  undone : ∀ moves, Bracketed table.size out moves → table.moveAll moves = .ok table

theorem IsRing.linked_of_mem (h : table.IsRing x (nodes.filter (· ∉ out))) (linked : x ∉ out)
    (member : y ∈ x :: nodes.filter (· ∉ out)) : table.Linked out y := by
  refine ⟨h.inside y member, ?_⟩
  rcases List.mem_cons.mp member with rfl | member
  · exact linked
  · exact of_decide_eq_true (List.mem_filter.mp member).2

theorem Removed.showsLinked (h : Removed whole out table) (built : Built whole) :
    ShowsLinked whole table out := by
  constructor
  case inverse =>
    rintro x ⟨inside, linked⟩
    obtain ⟨members, _, ring⟩ := h.exists_isRing built inside linked
    have held := ring.held_start
    exact ⟨⟨ring.linked_of_mem linked ring.nextOf_mem, held.previous_next⟩,
      ring.linked_of_mem linked ring.previousOf_mem, held.next_previous⟩
  case ring =>
    rintro x ⟨inside, linked⟩
    obtain ⟨members, own, ring⟩ := h.exists_isRing built inside linked
    refine ⟨_, ring.ring_eq, ring.circle, fun y member => ?_, members, own.ring_eq, rfl⟩
    exact ring.linked_of_mem linked (List.mem_cons_of_mem x member)
  case unlink =>
    rintro b ⟨within, apart⟩
    obtain ⟨_, _, home⟩ := h.exists_isRing built within apart
    refine ⟨table.unlink b, home.held_start.unlinkChecked_eq, ?_⟩
    rintro x nodes ⟨inside, linked⟩ differs run
    obtain ⟨_, _, ring⟩ := h.exists_isRing built inside linked
    exact ((ring.of_ring run).unlink_erase home differs).ring_eq
  case relink =>
    rintro b rest rfl
    cases h with
    | unlink _ _ held => exact ⟨_, held.relinkChecked_eq⟩
  case undone => exact fun moves => h.moveAll_bracketed built

/-- A lone node is put directly after the node that it is put after, and changes no other ring. In
    a table that is built so, nodes may be taken out and put back, the last one first, and every
    table on the way shows the rings of the nodes that are not out. -/
theorem rings_of_linked_nodes :
    (∀ table, Built table → ∀ a b, a < table.size → b < table.size → a ≠ b →
      table.isAlone b = true →
      ∃ after, table.insertAfterChecked a b = .ok after ∧ table.PutsAfter a b after) ∧
    ∀ whole, Built whole → ∀ out table, Thinned whole out table → ShowsLinked whole table out :=
  ⟨fun _ built _ _ => built.putsAfter,
    fun _ built _ _ thinned => (thinned.removed built).showsLinked built⟩

/-- Four nodes in a ring, and one that is alone. -/
def fourNodes : RingTable :=
  ((empty.alloc.alloc.alloc.alloc.alloc.insertAfter 0 1).insertAfter 1 2).insertAfter 2 3

/-- The last node is put into the ring, and three neighbours are taken out of it. -/
theorem four_nodes_joined : ∃ five table, fourNodes.insertAfterChecked 3 4 = .ok five ∧
    five.ring 2 = .ok [3, 4, 0, 1] ∧ Thinned five [1, 3, 2] table ∧ table.ring 0 = .ok [4] ∧
    table.moveAll [.unlink 4, .unlink 0, .relink 0, .relink 4] = .ok table := by
  obtain ⟨joins, shows⟩ := rings_of_linked_nodes
  have lone : Built empty.alloc.alloc.alloc.alloc.alloc :=
    .alloc (.alloc (.alloc (.alloc (.alloc .empty))))
  have built : Built fourNodes :=
    .insertAfter (.insertAfter (.insertAfter lone rfl Nat.zero_ne_one rfl) rfl
      (by decide : 1 ≠ 2) rfl) rfl (by decide : 2 ≠ 3) rfl
  obtain ⟨five, run, puts⟩ := joins fourNodes built 3 4 (by decide) (by decide) (by decide) rfl
  obtain ⟨more, turned, order⟩ := puts.within 2 [3, 0, 1] [2] [0, 1] rfl rfl
  obtain rfl : more = [3, 4, 0, 1] := (List.cons.inj order).2
  have joined : Built five := .insertAfter built rfl (by decide) run
  obtain ⟨_, _, rfl⟩ := insertAfterChecked_eq_ok run
  have thinned : Thinned (fourNodes.insertAfter 3 4) [1, 3, 2] _ :=
    .unlink (.unlink (.unlink .whole (by decide) rfl) (by decide) rfl) (by decide) rfl
  have shown := shows _ joined _ _ thinned
  refine ⟨_, _, run, turned, thinned, ?_, ?_⟩
  · obtain ⟨nodes, ring, _, _, members, own, rfl⟩ := shown.ring 0 ⟨by decide, by decide⟩
    obtain rfl : [1, 2, 3, 4] = members := Except.ok.inj own
    exact ring
  · have inner : Bracketed 5 [4, 1, 3, 2] (.unlink 0 :: [] ++ .relink 0 :: []) :=
      .cons (by decide) (by decide) .nil .nil
    exact shown.undone _ (.cons (by decide : 4 < 5) (by decide) inner .nil)

end ExactCover.RingTable
