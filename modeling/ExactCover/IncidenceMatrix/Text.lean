import ExactCover.IncidenceMatrix

/-! # Matrices as text

A row is written as a line of zeros and ones. Reading ignores white space around a line, and a
whole text may have blank lines anywhere.
-/

namespace ExactCover.IncidenceMatrix

/-- The places of the ones in a line, counted from `start`. -/
def onesFrom : Nat → List Char → List Nat
  | _, [] => []
  | start, c :: rest =>
      if c = '1' then start :: onesFrom (start + 1) rest else onesFrom (start + 1) rest

theorem mem_onesFrom {start place : Nat} {bits : List Char} :
    place ∈ onesFrom start bits ↔ ∃ offset, bits[offset]? = some '1' ∧ place = start + offset := by
  induction bits generalizing start with
  | nil => simp [onesFrom]
  | cons c rest ih =>
      have tail : (∃ offset, rest[offset]? = some '1' ∧ place = start + 1 + offset) ↔
          ∃ offset, (c :: rest)[offset + 1]? = some '1' ∧ place = start + (offset + 1) := by
        simp only [List.getElem?_cons_succ, Nat.add_assoc, Nat.add_comm 1]
      simp only [onesFrom]
      constructor
      · intro h
        split at h
        · rename_i one
          rcases List.mem_cons.1 h with rfl | h
          · exact ⟨0, by simp [one], rfl⟩
          · obtain ⟨offset, found⟩ := tail.1 (ih.1 h)
            exact ⟨offset + 1, found⟩
        · obtain ⟨offset, found⟩ := tail.1 (ih.1 h)
          exact ⟨offset + 1, found⟩
      · rintro ⟨offset, found, rfl⟩
        cases offset with
        | zero =>
            have one : c = '1' := by simpa using found
            simp [one]
        | succ offset =>
            have deeper := ih.2 (tail.2 ⟨offset, found, rfl⟩)
            split
            · exact List.mem_cons_of_mem _ deeper
            · exact deeper

theorem pairwise_onesFrom (start : Nat) (bits : List Char) :
    (onesFrom start bits).Pairwise (· < ·) := by
  induction bits generalizing start with
  | nil => exact List.Pairwise.nil
  | cons c rest ih =>
      simp only [onesFrom]
      split
      · refine List.pairwise_cons.2 ⟨fun place hplace => ?_, ih (start + 1)⟩
        obtain ⟨offset, _, rfl⟩ := mem_onesFrom.1 hplace
        omega
      · exact ih (start + 1)

/-- Whether a character is a digit of base two. -/
def isBit (c : Char) : Bool := c == '0' || c == '1'

/-- Why a line cannot be a row, if it cannot: a wrong length counts before a wrong character. -/
def lineError? (columns row : Nat) (line : List Char) : Option Error :=
  if line.length ≠ columns then some (.unevenLine row line.length columns)
  else (line.find? (!isBit ·)).map (.notABit row)

/-- The matrix whose rows are these lines without the white space around them. The first line
    says how many columns there are; no line at all is the empty matrix. -/
def ofLines (lines : List (List Char)) : Except Error IncidenceMatrix :=
  let lines := lines.map trimBlank
  let columns := (lines.head?.getD []).length
  match h : lines.zipIdx.findSome? fun (line, row) => lineError? columns row line with
  | some error => .error error
  | none => .ok {
      columns
      rows := (lines.map (onesFrom 0)).toArray
      ascending := by
        intro row hrow
        obtain ⟨line, _, rfl⟩ := List.mem_map.1 (List.mem_toArray.1 hrow)
        exact pairwise_onesFrom 0 line
      inside := by
        intro row hrow column hcolumn
        obtain ⟨line, hline, rfl⟩ := List.mem_map.1 (List.mem_toArray.1 hrow)
        obtain ⟨index, hindex⟩ := List.mem_iff_getElem?.1 hline
        have fits := List.findSome?_eq_none_iff.1 h _
          (List.mk_mem_zipIdx_iff_getElem?.2 hindex)
        obtain ⟨offset, found, rfl⟩ := mem_onesFrom.1 hcolumn
        have below : offset < line.length := (List.getElem?_eq_some_iff.1 found).1
        simp only [lineError?] at fits
        split at fits
        · simp at fits
        · omega }

/-- The matrix with one row for every line of the text that is not blank. -/
def parse (text : String) : Except Error IncidenceMatrix :=
  ofLines ((linesOf text.toList).map trimBlank |>.filter (!·.isEmpty))

/-- The characters of a row for `count` columns from `column` on. The set columns that are left
    are passed one by one, so that only the next of them is looked at. -/
def bitsFrom : Nat → Nat → List Nat → List Char
  | _, 0, _ => []
  | column, count + 1, [] => '0' :: bitsFrom (column + 1) count []
  | column, count + 1, next :: rest =>
      if next = column then '1' :: bitsFrom (column + 1) count rest
      else '0' :: bitsFrom (column + 1) count (next :: rest)

/-- A row as a line of zeros and ones. -/
def writeRow (columns : Nat) (row : List Nat) : String :=
  String.ofList (bitsFrom 0 columns row)

/-- The rows as lines, without a line feed at the end. -/
def toText (matrix : IncidenceMatrix) : String :=
  "\n".intercalate (matrix.rows.toList.map (writeRow matrix.columns))

end ExactCover.IncidenceMatrix
