import ExactCover.IncidenceMatrix.Text
import Mathlib

/-! # Reading what is written

A text is read line by line. Where a line ends, and what white space surrounds it, makes no
difference to the matrix that is read, and a matrix is written in the lines that it is read from.
Only the matrices that have rows and no columns, or columns and no rows, are lost in a text.
-/

namespace ExactCover

/-! ### Lines -/

variable {text line : List Char}

/-- White space at the end of a text is trimmed away. -/
theorem trimBlank_append {c : Char} (blank : isBlank c = true) (text : List Char) :
    trimBlank (text ++ [c]) = trimBlank text := by
  unfold trimBlank
  rw [List.dropWhile_append]
  split
  · rename_i empty
    rw [List.isEmpty_iff.mp empty]
    simp [blank]
  · simp [blank]

/-- What is trimmed has no white space at its ends that is left to trim. -/
theorem trimBlank_trimBlank (text : List Char) : trimBlank (trimBlank text) = trimBlank text := by
  have front : (trimBlank text).dropWhile isBlank = trimBlank text := by
    apply List.dropWhile_eq_self_iff.mpr
    intro some_left
    have start : trimBlank text <+: text.dropWhile isBlank := List.rdropWhile_prefix isBlank _
    rw [start.getElem some_left]
    exact List.dropWhile_get_zero_not isBlank text _
  have back : trimBlank (trimBlank text) = (trimBlank text).rdropWhile isBlank := by
    rw [trimBlank, front]
    rfl
  rw [back]
  exact List.rdropWhile_idempotent isBlank _

/-- The lines of a text that are not blank, without the white space around them. -/
def solidLines (text : List Char) : List (List Char) :=
  ((linesOf text).map trimBlank).filter (!·.isEmpty)

theorem trimBlank_of_mem_solidLines (member : line ∈ solidLines text) : trimBlank line = line := by
  obtain ⟨raw, _, rfl⟩ := List.mem_map.mp (List.mem_of_mem_filter member)
  exact trimBlank_trimBlank raw

theorem map_trimBlank_solidLines (text : List Char) :
    (solidLines text).map trimBlank = solidLines text := by
  have same : ∀ line ∈ solidLines text, trimBlank line = id line :=
    fun line member => trimBlank_of_mem_solidLines member
  rw [List.map_congr_left same, List.map_id]

/-- The lines of a text are its pieces between line feeds, where a piece may have a carriage return
    more at its end, and an empty last piece is no line. -/
theorem exists_pieces (text : List Char) : ∃ pieces last, text.splitOn '\n' = pieces ++ last ∧
    (last = [] ∨ last = [[]]) ∧
    List.Forall₂ (fun line piece => piece = line ∨ piece = line ++ ['\r'])
      (linesOf text) pieces := by
  fun_induction linesOf text with
  | case1 => exact ⟨[], [[]], rfl, .inr rfl, .nil⟩
  | case2 rest ih =>
      obtain ⟨pieces, last, split, ends, same⟩ := ih
      refine ⟨[] :: pieces, last, ?_, ends, .cons (.inl rfl) same⟩
      simp [List.splitOn_cons_eq_if_modifyHead, split]
  | case3 rest ih =>
      obtain ⟨pieces, last, split, ends, same⟩ := ih
      refine ⟨['\r'] :: pieces, last, ?_, ends, .cons (.inr rfl) same⟩
      simp [List.splitOn_cons_eq_if_modifyHead, split]
  | case4 c rest feed _ none ih =>
      obtain ⟨pieces, last, split, ends, same⟩ := ih
      rw [none] at same
      cases same
      rcases ends with rfl | rfl
      · exact absurd split (List.splitOn_ne_nil '\n' rest)
      · refine ⟨[[c]], [], ?_, .inl rfl, .cons (.inl rfl) .nil⟩
        have inside : c ≠ '\n' := fun ends => feed ends
        simp [List.splitOn_cons_eq_if_modifyHead, split, inside]
  | case5 c rest feed _ line more found ih =>
      obtain ⟨pieces, last, split, ends, same⟩ := ih
      rw [found] at same
      cases same with
      | cons first others =>
          rename_i piece pieces
          refine ⟨(c :: piece) :: pieces, last, ?_, ends, .cons ?_ others⟩
          · have inside : c ≠ '\n' := fun ends => feed ends
            simp [List.splitOn_cons_eq_if_modifyHead, split, inside]
          · exact first.imp (congrArg (c :: ·)) (congrArg (c :: ·))

/-- It makes no difference to the lines without their white space where carriage returns stand. -/
theorem solidLines_eq_splitOn (text : List Char) :
    solidLines text = ((text.splitOn '\n').map trimBlank).filter (!·.isEmpty) := by
  obtain ⟨pieces, last, split, ends, same⟩ := exists_pieces text
  have trimmed : (linesOf text).map trimBlank = pieces.map trimBlank := by
    rw [← List.forall₂_eq_eq_eq, List.forall₂_map_left_iff, List.forall₂_map_right_iff]
    apply same.imp
    rintro line piece (rfl | rfl)
    · rfl
    · exact (trimBlank_append rfl line).symm
  have rest : (last.map trimBlank).filter (!·.isEmpty) = [] := by
    rcases ends with rfl | rfl <;> rfl
  rw [solidLines, trimmed, split, List.map_append, List.filter_append, rest, List.append_nil]

theorem forall_mem_zipIdx {α : Type} {items : List α} {holds : α → Prop} :
    (∀ pair ∈ items.zipIdx, holds pair.1) ↔ ∀ item ∈ items, holds item := by
  constructor
  · intro all item member
    obtain ⟨i, found⟩ := List.mem_iff_getElem?.mp member
    exact all (item, i) (List.mk_mem_zipIdx_iff_getElem?.mpr found)
  · intro all pair member
    exact all pair.1 (List.mem_of_getElem? (List.mk_mem_zipIdx_iff_getElem?.mp member))

theorem findSome?_zipIdx_eq_some {α β : Type} {f : α → Nat → Option β} {items : List α}
    {found : β} :
    (items.zipIdx.findSome? fun pair => f pair.1 pair.2) = some found ↔
      ∃ before item after, items = before ++ item :: after ∧ f item before.length = some found ∧
        ∀ pair ∈ before.zipIdx, f pair.1 pair.2 = none := by
  rw [List.findSome?_eq_some_iff]
  constructor
  · rintro ⟨_, _, _, split, hit, missed⟩
    obtain ⟨before, rest, rfl, rfl, other⟩ := List.zipIdx_eq_append_iff.mp split
    obtain ⟨item, after, rfl, rfl, _⟩ := List.zipIdx_eq_cons_iff.mp other.symm
    exact ⟨before, item, after, rfl, by simpa using hit, missed⟩
  · rintro ⟨before, item, after, rfl, hit, missed⟩
    refine ⟨before.zipIdx, (item, before.length), after.zipIdx (before.length + 1), ?_, hit, missed⟩
    rw [List.zipIdx_append, List.zipIdx_cons, Nat.zero_add]

namespace IncidenceMatrix

variable {lines : List (List Char)} {columns start count : Nat} {row : List Nat}
  {matrix other : IncidenceMatrix} {error : Error}

/-! ### Rows -/

theorem ext_rows (width : matrix.columns = other.columns) (rows : matrix.rows = other.rows) :
    matrix = other := by
  cases matrix
  cases other
  simp only at width rows
  subst width rows
  rfl

theorem insertOnce_cons (first : ∀ n ∈ row, start < n) : insertOnce start row = start :: row := by
  cases row with
  | nil => rfl
  | cons n rest => rw [insertOnce, if_pos (first n List.mem_cons_self)]

/-- A row that ascends is kept as it is given. -/
theorem ascendingSet_eq_self (ascending : row.Pairwise (· < ·)) : ascendingSet row = row := by
  induction row with
  | nil => rfl
  | cons n rest ih =>
      obtain ⟨first, later⟩ := List.pairwise_cons.mp ascending
      have kept : ascendingSet (n :: rest) = insertOnce n (ascendingSet rest) := rfl
      rw [kept, ih later, insertOnce_cons first]

/-- A matrix is made of rows that set its columns only, and keeps them as sets. -/
theorem ofRows_eq_ok_iff {rows : List (List Nat)} : ofRows columns rows = .ok matrix ↔
    (∀ row ∈ rows, ∀ column ∈ row, column < columns) ∧ matrix.columns = columns ∧
      matrix.rows = (rows.map ascendingSet).toArray := by
  have members : (∀ row ∈ rows.map ascendingSet, ∀ column ∈ row, column < columns) ↔
      ∀ row ∈ rows, ∀ column ∈ row, column < columns := by
    simp only [List.forall_mem_map, mem_ascendingSet]
  unfold ofRows
  split
  · rename_i r column found
    constructor
    · intro refused
      cases refused
    · rintro ⟨inside, _⟩
      obtain ⟨⟨row, i⟩, member, hit⟩ := List.exists_of_findSome?_eq_some found
      obtain ⟨c, late, _⟩ := Option.map_eq_some_iff.mp hit
      have listed := List.mem_of_getElem? (List.mk_mem_zipIdx_iff_getElem?.mp member)
      have below := members.mpr inside row listed c (List.mem_of_find?_eq_some late)
      have past := List.find?_some late
      rw [decide_eq_true_iff] at past
      omega
  · rename_i none
    rw [Except.ok.injEq, ← members]
    constructor
    · rintro rfl
      exact ⟨inside_of_firstOutside?_eq_none none, rfl, rfl⟩
    · rintro ⟨_, width, rows⟩
      exact (ext_rows width rows).symm

/-! ### Lines as rows -/

/-- A line of zeros and ones, one for each column. -/
def IsRowText (columns : Nat) (line : List Char) : Prop :=
  line.length = columns ∧ ∀ c ∈ line, c = '0' ∨ c = '1'

/-- What is wrong with a line that is no row. -/
inductive Spoils (columns row : Nat) : List Char → Error → Prop where
  | length {line : List Char} (uneven : line.length ≠ columns) :
      Spoils columns row line (.unevenLine row line.length columns)
  | character {good rest : List Char} {c : Char} (even : (good ++ c :: rest).length = columns)
      (bits : ∀ b ∈ good, b = '0' ∨ b = '1') (stray : ¬(c = '0' ∨ c = '1')) :
      Spoils columns row (good ++ c :: rest) (.notABit row c)

theorem isBit_iff {c : Char} : isBit c = true ↔ c = '0' ∨ c = '1' := by
  simp only [isBit, Bool.or_eq_true, beq_iff_eq]

theorem lineError?_eq_none_iff {r : Nat} :
    lineError? columns r line = none ↔ IsRowText columns line := by
  unfold lineError? IsRowText
  split
  · rename_i uneven
    simp [uneven]
  · rename_i even
    simp only [Option.map_eq_none_iff, List.find?_eq_none, Bool.not_eq_true', Bool.not_eq_false,
      isBit_iff]
    exact (and_iff_right (not_not.mp even)).symm

theorem lineError?_eq_some_iff {r : Nat} :
    lineError? columns r line = some error ↔ Spoils columns r line error := by
  unfold lineError?
  constructor
  · intro wrong
    split at wrong
    · rename_i uneven
      cases wrong
      exact .length uneven
    · rename_i even
      obtain ⟨c, found, rfl⟩ := Option.map_eq_some_iff.mp wrong
      obtain ⟨stray, good, rest, rfl, bits⟩ := List.find?_eq_some_iff_append.mp found
      apply Spoils.character (not_not.mp even)
      · intro b member
        have bit := bits b member
        rwa [Bool.not_not, isBit_iff] at bit
      · rwa [Bool.not_eq_true', Bool.eq_false_iff, ne_eq, isBit_iff] at stray
  · intro wrong
    cases wrong with
    | length uneven => rw [if_pos uneven]
    | character even bits stray =>
        rw [if_neg (not_not.mpr even), Option.map_eq_some_iff]
        refine ⟨_, List.find?_eq_some_iff_append.mpr ⟨?_, _, _, rfl, fun b member => ?_⟩, rfl⟩
        · rwa [Bool.not_eq_true', Bool.eq_false_iff, ne_eq, isBit_iff]
        · rw [Bool.not_not, isBit_iff]
          exact bits b member

/-- The number of columns that the first of the lines asks for. -/
def widthOf (lines : List (List Char)) : Nat := (lines.head?.getD []).length

/-- Reading fails with what is wrong with the first line that is no row. -/
theorem ofLines_eq_error_iff : ofLines lines = .error error ↔ ∃ before line after,
    lines.map trimBlank = before ++ line :: after ∧
      (∀ earlier ∈ before, IsRowText (widthOf (lines.map trimBlank)) earlier) ∧
      Spoils (widthOf (lines.map trimBlank)) before.length line error := by
  have first : ofLines lines = .error error ↔ ((lines.map trimBlank).zipIdx.findSome?
      fun pair => lineError? (widthOf (lines.map trimBlank)) pair.2 pair.1) = some error := by
    dsimp only [ofLines]
    split
    · rename_i found
      rw [widthOf, found, Except.error.injEq, Option.some.injEq]
    · rename_i none
      constructor
      · intro failed
        cases failed
      · intro hit
        cases none.symm.trans hit
  rw [first, findSome?_zipIdx_eq_some
    (f := fun line row => lineError? (widthOf (lines.map trimBlank)) row line)]
  simp only [lineError?_eq_none_iff, forall_mem_zipIdx, lineError?_eq_some_iff, and_comm]

theorem ofLines_eq_ok_iff : ofLines lines = .ok matrix ↔
    (∀ line ∈ lines.map trimBlank, IsRowText (widthOf (lines.map trimBlank)) line) ∧
      matrix.columns = widthOf (lines.map trimBlank) ∧
      matrix.rows = ((lines.map trimBlank).map (onesFrom 0)).toArray := by
  dsimp only [ofLines]
  split
  · rename_i found
    obtain ⟨before, line, after, split, wrong, _⟩ := findSome?_zipIdx_eq_some
      (f := fun line row => lineError? (widthOf (lines.map trimBlank)) row line).mp found
    constructor
    · intro refused
      cases refused
    · rintro ⟨good, _⟩
      rw [lineError?_eq_none_iff.mpr (good line (by rw [split]; simp))] at wrong
      cases wrong
  · rename_i none
    have good : ∀ line ∈ lines.map trimBlank, IsRowText (widthOf (lines.map trimBlank)) line := by
      rw [← forall_mem_zipIdx]
      intro pair member
      exact lineError?_eq_none_iff.mp (List.findSome?_eq_none_iff.mp none pair member)
    rw [Except.ok.injEq]
    constructor
    · rintro rfl
      exact ⟨good, rfl, rfl⟩
    · rintro ⟨_, width, rows⟩
      exact (ext_rows width rows).symm

/-! ### Writing a row -/

theorem onesFrom_eq_idxsOf (start : Nat) (line : List Char) :
    onesFrom start line = line.idxsOf '1' start := by
  induction line generalizing start with
  | nil => rfl
  | cons c rest ih => simp only [onesFrom, List.idxsOf_cons, ih, beq_iff_eq]

theorem bitsFrom_later (later : ∀ n ∈ row, start < n) :
    bitsFrom start (count + 1) row = '0' :: bitsFrom (start + 1) count row := by
  cases row with
  | nil => rfl
  | cons next rest =>
      have ahead := later next List.mem_cons_self
      rw [bitsFrom, if_neg (Nat.ne_of_gt ahead)]

/-- The line of a row is a line for as many columns. -/
theorem bitsFrom_isRowText (start count : Nat) (row : List Nat) :
    IsRowText count (bitsFrom start count row) := by
  fun_induction bitsFrom start count row with
  | case1 => exact ⟨rfl, by simp⟩
  | case2 column count ih =>
      exact ⟨congrArg (· + 1) ih.1, List.forall_mem_cons.mpr ⟨.inl rfl, ih.2⟩⟩
  | case3 column count rest ih =>
      exact ⟨congrArg (· + 1) ih.1, List.forall_mem_cons.mpr ⟨.inr rfl, ih.2⟩⟩
  | case4 column count next rest differs ih =>
      exact ⟨congrArg (· + 1) ih.1, List.forall_mem_cons.mpr ⟨.inl rfl, ih.2⟩⟩

/-- The places of the ones in the line of a row are the columns that it sets. -/
theorem onesFrom_bitsFrom (ascending : row.Pairwise (· < ·))
    (inside : ∀ n ∈ row, start ≤ n ∧ n < start + count) :
    onesFrom start (bitsFrom start count row) = row := by
  induction count generalizing start row with
  | zero =>
      cases row with
      | nil => rfl
      | cons n rest =>
          have := inside n List.mem_cons_self
          omega
  | succ count ih =>
      cases row with
      | nil => exact ih .nil (by simp)
      | cons n rest =>
          obtain ⟨first, others⟩ := List.pairwise_cons.mp ascending
          by_cases here : n = start
          · subst here
            rw [bitsFrom, if_pos rfl, onesFrom, if_pos rfl]
            congr 1
            apply ih others
            intro m member
            have := first m member
            have := inside m (List.mem_cons_of_mem n member)
            omega
          · have bound := inside n List.mem_cons_self
            have later : ∀ m ∈ n :: rest, start < m := by
              rw [List.forall_mem_cons]
              refine ⟨by omega, fun m member => ?_⟩
              have := first m member
              omega
            rw [bitsFrom_later later, onesFrom, if_neg (by decide)]
            apply ih ascending
            intro m member
            have := later m member
            have := inside m member
            omega

/-- A line of zeros and ones is the line of the places of its ones. -/
theorem bitsFrom_onesFrom (start : Nat) {line : List Char} (bits : ∀ c ∈ line, c = '0' ∨ c = '1') :
    bitsFrom start line.length (onesFrom start line) = line := by
  induction line generalizing start with
  | nil => rfl
  | cons c rest ih =>
      obtain ⟨bit, others⟩ := List.forall_mem_cons.mp bits
      rcases bit with rfl | rfl
      · have later : ∀ n ∈ onesFrom (start + 1) rest, start < n := by
          intro n member
          obtain ⟨offset, _, rfl⟩ := mem_onesFrom.mp member
          omega
        rw [onesFrom, if_neg (by decide), List.length_cons, bitsFrom_later later, ih _ others]
      · rw [onesFrom, if_pos rfl, List.length_cons, bitsFrom, if_pos rfl, ih _ others]

/-! ### Texts -/

theorem IsRowText.feed_notMem (h : IsRowText columns line) : '\n' ∉ line := by
  intro member
  rcases h.2 _ member with ends | ends <;> cases ends

theorem map_trimBlank_eq (good : ∀ line ∈ lines, IsRowText columns line) :
    lines.map trimBlank = lines := by
  have kept : ∀ line ∈ lines, trimBlank line = id line := by
    intro line member
    apply trimBlank_of_forall
    intro c inside
    rcases (good line member).2 c inside with rfl | rfl <;> rfl
  rw [List.map_congr_left kept, List.map_id]

theorem widthOf_eq (good : ∀ line ∈ lines, IsRowText columns line) (some_line : lines ≠ []) :
    widthOf lines = columns := by
  cases lines with
  | nil => exact absurd rfl some_line
  | cons line rest => exact (good line List.mem_cons_self).1

/-- Lines are read when they are as long as each other and have zeros and ones only. -/
theorem exists_ofLines_iff : (∃ matrix, ofLines lines = .ok matrix) ↔
    (∀ line ∈ lines.map trimBlank, ∀ other ∈ lines.map trimBlank, line.length = other.length) ∧
      ∀ line ∈ lines.map trimBlank, ∀ c ∈ line, c = '0' ∨ c = '1' := by
  constructor
  · rintro ⟨matrix, read⟩
    obtain ⟨good, _⟩ := ofLines_eq_ok_iff.mp read
    exact ⟨fun line member other also => (good line member).1.trans (good other also).1.symm,
      fun line member => (good line member).2⟩
  · rintro ⟨even, bits⟩
    cases result : ofLines lines with
    | ok matrix => exact ⟨matrix, rfl⟩
    | error error =>
        obtain ⟨before, line, after, split, _, wrong⟩ := ofLines_eq_error_iff.mp result
        have listed : line ∈ lines.map trimBlank := by rw [split]; simp
        have first : ∃ other ∈ lines.map trimBlank,
            widthOf (lines.map trimBlank) = other.length := by
          rw [split]
          cases before with
          | nil => exact ⟨line, List.mem_cons_self, rfl⟩
          | cons other rest => exact ⟨other, List.mem_cons_self, rfl⟩
        cases wrong with
        | length uneven =>
            obtain ⟨other, also, width⟩ := first
            exact absurd ((even line listed other also).trans width.symm) uneven
        | character _ _ stray => exact absurd (bits _ listed _ (by simp)) stray

/-- The matrix read from some lines is that of the places of the ones in them. -/
theorem ofRows_of_ofLines (read : ofLines lines = .ok matrix) :
    ofRows (widthOf (lines.map trimBlank))
      ((lines.map trimBlank).map fun line => line.idxsOf '1') = .ok matrix := by
  obtain ⟨_, width, rows⟩ := ofLines_eq_ok_iff.mp read
  have places : (lines.map trimBlank).map (fun line => line.idxsOf '1') = matrix.rows.toList := by
    rw [rows, List.map_congr_left fun line _ => (onesFrom_eq_idxsOf 0 line).symm]
  rw [ofRows_eq_ok_iff, places, ← width]
  refine ⟨fun row member => matrix.inside row (Array.mem_def.mpr member), rfl, ?_⟩
  have kept : ∀ row ∈ matrix.rows.toList, ascendingSet row = id row := fun row member =>
    ascendingSet_eq_self (matrix.ascending row (Array.mem_def.mpr member))
  rw [List.map_congr_left kept, List.map_id]

/-- A matrix that is read from some lines is written in these lines. -/
theorem toText_of_ofLines (read : ofLines lines = .ok matrix) :
    matrix.toText = "\n".intercalate ((lines.map trimBlank).map String.ofList) := by
  obtain ⟨good, width, rows⟩ := ofLines_eq_ok_iff.mp read
  rw [toText, rows, List.map_map]
  congr 1
  apply List.map_congr_left
  intro line member
  obtain ⟨length, bits⟩ := good line member
  rw [Function.comp_apply, writeRow, width, ← length, bitsFrom_onesFrom 0 bits]

/-- The lines that a matrix is written in. -/
def linesOfRows (matrix : IncidenceMatrix) : List (List Char) :=
  matrix.rows.toList.map (bitsFrom 0 matrix.columns)

theorem linesOfRows_isRowText (matrix : IncidenceMatrix) :
    ∀ line ∈ matrix.linesOfRows, IsRowText matrix.columns line := by
  rw [linesOfRows, List.forall_mem_map]
  exact fun row _ => bitsFrom_isRowText 0 matrix.columns row

theorem map_onesFrom_linesOfRows (matrix : IncidenceMatrix) :
    matrix.linesOfRows.map (onesFrom 0) = matrix.rows.toList := by
  have read : ∀ row ∈ matrix.rows.toList,
      (onesFrom 0 ∘ bitsFrom 0 matrix.columns) row = id row := by
    intro row member
    apply onesFrom_bitsFrom (matrix.ascending row (Array.mem_def.mpr member))
    intro n set
    have := matrix.inside row (Array.mem_def.mpr member) n set
    omega
  rw [linesOfRows, List.map_map, List.map_congr_left read, List.map_id]

theorem toList_toText (matrix : IncidenceMatrix) :
    matrix.toText.toList = ['\n'].intercalate matrix.linesOfRows := by
  have lines : String.toList ∘ writeRow matrix.columns = bitsFrom 0 matrix.columns := by
    funext row
    exact String.toList_ofList
  rw [toText, String.toList_intercalate, List.map_map, lines]
  rfl

/-- The lines of a written matrix are those of its rows, unless there are no columns to write. -/
theorem solidLines_toText (matrix : IncidenceMatrix) :
    solidLines matrix.toText.toList = if matrix.columns = 0 then [] else matrix.linesOfRows := by
  have good := matrix.linesOfRows_isRowText
  rw [toList_toText, solidLines_eq_splitOn]
  cases lines : matrix.linesOfRows with
  | nil => simp [trimBlank]
  | cons first rest =>
      rw [lines] at good
      rw [List.splitOn_intercalate '\n' (fun line member => (good line member).feed_notMem)
        (List.cons_ne_nil first rest), map_trimBlank_eq good]
      split
      · rename_i narrow
        apply List.filter_eq_nil_iff.mpr
        intro line member
        have length := (good line member).1
        rw [narrow, List.length_eq_zero_iff] at length
        simp [length]
      · rename_i wide
        apply List.filter_eq_self.mpr
        intro line member
        have length := (good line member).1
        cases line with
        | nil => exact absurd length.symm wide
        | cons c rest => rfl

/-- A written matrix is read back when it has rows and columns, or neither. -/
theorem parse_toText (matrix : IncidenceMatrix) : parse matrix.toText =
    .ok (if matrix.size = 0 ∨ matrix.columns = 0 then empty else matrix) := by
  have read : parse matrix.toText = ofLines (solidLines matrix.toText.toList) := rfl
  rw [read, solidLines_toText]
  by_cases narrow : matrix.columns = 0
  · rw [if_pos narrow, if_pos (.inr narrow)]
    rfl
  · rw [if_neg narrow]
    by_cases short : matrix.size = 0
    · have none : matrix.linesOfRows = [] := by
        rw [linesOfRows, List.length_eq_zero_iff.mp short, List.map_nil]
      rw [if_pos (.inl short), none]
      rfl
    · have good := matrix.linesOfRows_isRowText
      have some_line : matrix.linesOfRows ≠ [] := by
        rw [linesOfRows, ne_eq, List.map_eq_nil_iff, ← List.length_eq_zero_iff]
        exact short
      rw [if_neg (not_or.mpr ⟨short, narrow⟩), ofLines_eq_ok_iff, map_trimBlank_eq good,
        widthOf_eq good some_line, map_onesFrom_linesOfRows]
      exact ⟨good, rfl, rfl⟩

theorem eq_empty_iff : matrix = empty ↔ matrix.size = 0 ∧ matrix.columns = 0 := by
  constructor
  · rintro rfl
    exact ⟨rfl, rfl⟩
  · rintro ⟨short, narrow⟩
    exact ext_rows narrow (Array.eq_empty_of_size_eq_zero short)

theorem parse_toText_eq_self_iff :
    parse matrix.toText = .ok matrix ↔ (matrix.size = 0 ↔ matrix.columns = 0) := by
  rw [parse_toText, Except.ok.injEq]
  split
  · rw [eq_comm, eq_empty_iff]
    omega
  · simp only [true_iff]
    omega

theorem Spoils.kind_eq {r : Nat} (wrong : Spoils columns r line error) :
    error.kind = .invalidFormat := by
  cases wrong <;> rfl

/-- Lines are read as the matrix of the places of their ones, or what is wrong with the first bad
    line is reported; a text is read by its lines that are not blank, and written in them again. A
    written matrix is read back unless it has rows and no columns, or columns and no rows. -/
theorem read_and_written :
    (∀ lines : List (List Char),
      ((∃ matrix, ofLines lines = .ok matrix) ↔
        (∀ line ∈ lines.map trimBlank, ∀ other ∈ lines.map trimBlank,
          line.length = other.length) ∧
        ∀ line ∈ lines.map trimBlank, ∀ c ∈ line, c = '0' ∨ c = '1') ∧
      (∀ matrix, ofLines lines = .ok matrix → ofRows (widthOf (lines.map trimBlank))
        ((lines.map trimBlank).map fun line => line.idxsOf '1') = .ok matrix) ∧
      ∀ error, (ofLines lines = .error error ↔ ∃ before line after,
          lines.map trimBlank = before ++ line :: after ∧
          (∀ earlier ∈ before, IsRowText (widthOf (lines.map trimBlank)) earlier) ∧
          Spoils (widthOf (lines.map trimBlank)) before.length line error) ∧
        (ofLines lines = .error error → error.kind = .invalidFormat)) ∧
    ofLines [] = .ok empty ∧
    (∀ text : String, parse text = ofLines (solidLines text.toList) ∧
      solidLines text.toList =
        ((text.toList.splitOn '\n').map trimBlank).filter (!·.isEmpty) ∧
      ∀ matrix, parse text = .ok matrix →
        matrix.toText = "\n".intercalate ((solidLines text.toList).map String.ofList)) ∧
    ∀ matrix : IncidenceMatrix,
      (parse matrix.toText = .ok matrix ↔ (matrix.size = 0 ↔ matrix.columns = 0)) ∧
      (¬(matrix.size = 0 ↔ matrix.columns = 0) → parse matrix.toText = .ok empty) := by
  refine ⟨fun lines => ⟨exists_ofLines_iff, fun matrix => ofRows_of_ofLines, fun error =>
    ⟨ofLines_eq_error_iff, fun failed => ?_⟩⟩, rfl, fun text => ⟨rfl, solidLines_eq_splitOn _,
      fun matrix read => ?_⟩, fun matrix => ⟨?_, fun uneven => ?_⟩⟩
  · obtain ⟨_, _, _, _, _, wrong⟩ := ofLines_eq_error_iff.mp failed
    exact wrong.kind_eq
  · have written : matrix.toText =
        "\n".intercalate (((solidLines text.toList).map trimBlank).map String.ofList) :=
      toText_of_ofLines read
    rw [written, map_trimBlank_solidLines]
  · exact parse_toText_eq_self_iff
  · rw [parse_toText, if_pos]
    omega

theorem two_lines_read : ∃ matrix,
    ofLines [[' ', '1', '0', '1'], ['0', '1', '0', '\t']] = .ok matrix ∧
      ofRows 3 [[0, 2], [1]] = .ok matrix ∧ parse matrix.toText = .ok matrix := by
  have trimmed : [[' ', '1', '0', '1'], ['0', '1', '0', '\t']].map trimBlank =
      [['1', '0', '1'], ['0', '1', '0']] := rfl
  obtain ⟨reads, rows, _⟩ := read_and_written.1 [[' ', '1', '0', '1'], ['0', '1', '0', '\t']]
  rw [trimmed] at reads rows
  obtain ⟨matrix, read⟩ := reads.mpr (by simp)
  have placed := rows matrix read
  refine ⟨matrix, read, placed, (read_and_written.2.2.2 matrix).1.mpr ?_⟩
  obtain ⟨_, width, set⟩ := ofRows_eq_ok_iff.mp placed
  rw [size, width, set]
  decide

end IncidenceMatrix

end ExactCover
