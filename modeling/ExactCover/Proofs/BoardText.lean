import ExactCover.Console.Commands
import ExactCover.Proofs.ClueRemoval

/-! # Boards are read by their digits

Only the characters that are not white space count for a board that is read. They are its 81 digits,
or the first one that is no digit is reported, or else how many there are. A written board is read
back, and so is a board typed with slashes.
-/

namespace ExactCover

/-! ### Characters -/

namespace Digit

variable {c : Char} {digit : Digit}

theorem ofChar?_toChar (digit : Digit) : ofChar? digit.toChar = some digit := by
  revert digit
  decide

theorem isBlank_toChar (digit : Digit) : isBlank digit.toChar = false := by
  revert digit
  decide

theorem toChar_of_ofChar? (found : ofChar? c = some digit) : digit.toChar = c := by
  unfold ofChar? at found
  split at found
  · rename_i inside
    cases found
    have above : 48 ≤ c.toNat := inside.1
    show Char.ofNat (48 + (c.toNat - 48)) = c
    rw [Nat.add_sub_cancel' above, Char.ofNat_toNat]
  · cases found

theorem isSome_ofChar? (c : Char) : (ofChar? c).isSome = c.isDigit := by
  have range : c.isDigit = true ↔ '0'.toNat ≤ c.toNat ∧ c.toNat ≤ '9'.toNat := by
    simp only [Char.isDigit, Bool.and_eq_true, decide_eq_true_iff, ge_iff_le,
      UInt32.le_iff_toNat_le]
    rfl
  unfold ofChar?
  rw [Bool.eq_iff_iff, range]
  split
  · rename_i inside
    exact iff_of_true rfl inside
  · rename_i outside
    exact iff_of_false Bool.false_ne_true outside

/-- The characters of digits are read as these digits. -/
theorem filterMap_map_toChar (digits : List Digit) :
    (digits.map toChar).filterMap ofChar? = digits := by
  have each : ∀ digit ∈ digits, (ofChar? ∘ toChar) digit = some (id digit) :=
    fun digit _ => ofChar?_toChar digit
  rw [List.filterMap_map, List.filterMap_eq_map_iff_forall_eq_some.mpr each, List.map_id]

/-- Characters that are digits are those of the digits that are read. -/
theorem map_toChar_filterMap {chars : List Char} (all : ∀ c ∈ chars, c.isDigit = true) :
    (chars.filterMap ofChar?).map toChar = chars := by
  induction chars with
  | nil => rfl
  | cons c rest ih =>
      obtain ⟨first, others⟩ := List.forall_mem_cons.mp all
      rw [← isSome_ofChar?] at first
      obtain ⟨digit, found⟩ := Option.isSome_iff_exists.mp first
      rw [List.filterMap_cons_some found, List.map_cons, ih others, toChar_of_ofChar? found]

end Digit

/-- The characters of a text that are not white space. -/
def marksOf (text : List Char) : List Char := text.filter (!isBlank ·)

theorem marksOf_append (front back : List Char) :
    marksOf (front ++ back) = marksOf front ++ marksOf back :=
  List.filter_append front back

theorem marksOf_blank {text : List Char} (blank : ∀ c ∈ text, isBlank c = true) :
    marksOf text = [] := by
  apply List.filter_eq_nil_iff.mpr
  intro c member
  rw [blank c member]
  decide

/-- The marks of a text of several lines are those of its lines. -/
theorem marksOf_intercalate (lines : List (List Char)) :
    marksOf (['\n'].intercalate lines) = (lines.map marksOf).flatten := by
  induction lines with
  | nil => rfl
  | cons line rest ih =>
      cases rest with
      | nil => simp [List.intercalate]
      | cons next rest =>
          have feed : marksOf ['\n'] = [] := rfl
          rw [List.intercalate_cons_cons, marksOf_append, marksOf_append, ih, feed, List.append_nil]
          rfl

namespace Board

variable {board : Board} {chars : List Char} {error : Error}

/-! ### Reading -/

/-- The first character that is no digit, with the digits before it. -/
theorem find?_stray_iff {marks : List Char} {c : Char} :
    marks.find? (fun c => (Digit.ofChar? c).isNone) = some c ↔ ∃ before after,
      marks = before ++ c :: after ∧ (∀ d ∈ before, d.isDigit = true) ∧ c.isDigit = false := by
  have none : ∀ d, (Digit.ofChar? d).isNone = !d.isDigit := by
    intro d
    rw [← Digit.isSome_ofChar?, Option.not_isSome]
  simp only [none, List.find?_eq_some_iff_append, Bool.not_not, Bool.not_eq_true']
  constructor
  · rintro ⟨stray, before, after, split, digits⟩
    exact ⟨before, after, split, digits, stray⟩
  · rintro ⟨before, after, split, digits, stray⟩
    exact ⟨stray, before, after, split, digits⟩

theorem find?_stray_eq_none_iff {marks : List Char} :
    marks.find? (fun c => (Digit.ofChar? c).isNone) = none ↔ ∀ c ∈ marks, c.isDigit = true := by
  simp only [List.find?_eq_none, Option.isNone_iff_eq_none, ← Digit.isSome_ofChar?,
    Option.isSome_iff_ne_none, ne_eq]

/-- With digits only, their number decides. -/
theorem ofChars_digits (digits : ∀ c ∈ marksOf chars, c.isDigit = true) :
    (marksOf chars).length = 81 ∧ (∃ board, ofChars chars = .ok board ∧
      marksOf chars = board.toList.map Digit.toChar) ∨
    (marksOf chars).length ≠ 81 ∧ ofChars chars = .error (.digitCount (marksOf chars).length) := by
  have read := Digit.map_toChar_filterMap digits
  have length : ((marksOf chars).filterMap Digit.ofChar?).length = (marksOf chars).length := by
    rw [← List.length_map Digit.toChar, read]
  have none : (chars.filter (!isBlank ·)).find? (fun c => (Digit.ofChar? c).isNone) = none :=
    find?_stray_eq_none_iff.mpr digits
  unfold ofChars
  dsimp only
  rw [none]
  dsimp only
  split
  · rename_i all
    left
    exact ⟨length.symm.trans all, _, rfl, read.symm⟩
  · rename_i differs
    right
    exact ⟨fun all => differs (length.trans all),
      congrArg (fun n => Except.error (Error.digitCount n)) length⟩

theorem ofChars_stray {c : Char}
    (found : (marksOf chars).find? (fun c => (Digit.ofChar? c).isNone) = some c) :
    ofChars chars = .error (.strayCharacter c) := by
  unfold marksOf at found
  unfold ofChars
  dsimp only
  rw [found]

theorem isDigit_of_marks {digits : List Digit} (marks : marksOf chars = digits.map Digit.toChar) :
    ∀ c ∈ marksOf chars, c.isDigit = true := by
  rw [marks, List.forall_mem_map]
  intro digit _
  rw [← Digit.isSome_ofChar?, Digit.ofChar?_toChar, Option.isSome_some]

/-- A text is read as a board when its marks are the digits of the board. -/
theorem ofChars_eq_ok_iff :
    ofChars chars = .ok board ↔ marksOf chars = board.toList.map Digit.toChar := by
  constructor
  · intro read
    cases found : (marksOf chars).find? (fun c => (Digit.ofChar? c).isNone) with
    | some c =>
        rw [ofChars_stray found] at read
        cases read
    | none =>
        have digits := find?_stray_eq_none_iff.mp found
        rcases ofChars_digits digits with ⟨_, other, same, marks⟩ | ⟨_, count⟩
        · rw [same] at read
          cases read
          exact marks
        · rw [count] at read
          cases read
  · intro marks
    rcases ofChars_digits (isDigit_of_marks marks) with ⟨_, other, read, also⟩ | ⟨short, _⟩
    · have digits : board.toList = other.toList := by
        rw [← Digit.filterMap_map_toChar board.toList, ← marks, also, Digit.filterMap_map_toChar]
      rw [read, toList_inj digits]
    · rw [marks, List.length_map, toList, Vector.length_toList] at short
      exact absurd rfl short

theorem exists_ofChars_iff : (∃ board, ofChars chars = .ok board) ↔
    (marksOf chars).length = 81 ∧ ∀ c ∈ marksOf chars, c.isDigit = true := by
  constructor
  · rintro ⟨board, read⟩
    have marks := ofChars_eq_ok_iff.mp read
    refine ⟨?_, isDigit_of_marks marks⟩
    rw [marks, List.length_map, toList, Vector.length_toList]
  · rintro ⟨all, digits⟩
    rcases ofChars_digits digits with ⟨_, board, read, _⟩ | ⟨short, _⟩
    · exact ⟨board, read⟩
    · exact absurd all short

/-- A text that is no board has a first mark that is no digit, or not 81 digits. -/
theorem ofChars_eq_error_iff : ofChars chars = .error error ↔
    (∃ before c after, marksOf chars = before ++ c :: after ∧
      (∀ d ∈ before, d.isDigit = true) ∧ c.isDigit = false ∧ error = .strayCharacter c) ∨
    (∀ c ∈ marksOf chars, c.isDigit = true) ∧ (marksOf chars).length ≠ 81 ∧
      error = .digitCount (marksOf chars).length := by
  constructor
  · intro failed
    cases found : (marksOf chars).find? (fun c => (Digit.ofChar? c).isNone) with
    | some c =>
        left
        rw [ofChars_stray found] at failed
        cases failed
        obtain ⟨before, after, split, digits, stray⟩ := find?_stray_iff.mp found
        exact ⟨before, c, after, split, digits, stray, rfl⟩
    | none =>
        right
        have digits := find?_stray_eq_none_iff.mp found
        rcases ofChars_digits digits with ⟨_, _, read, _⟩ | ⟨short, count⟩
        · rw [read] at failed
          cases failed
        · rw [count] at failed
          cases failed
          exact ⟨digits, short, rfl⟩
  · rintro (⟨before, c, after, split, digits, stray, rfl⟩ | ⟨digits, short, rfl⟩)
    · exact ofChars_stray (find?_stray_iff.mpr ⟨before, after, split, digits, stray⟩)
    · rcases ofChars_digits digits with ⟨all, _⟩ | ⟨_, count⟩
      · exact absurd all short
      · exact count

/-- Texts that differ in white space only are read alike. -/
theorem ofChars_congr {text other : List Char} (same : marksOf text = marksOf other) :
    ofChars text = ofChars other := by
  cases result : ofChars other with
  | ok board => rw [ofChars_eq_ok_iff, same, ← ofChars_eq_ok_iff, result]
  | error error => rw [ofChars_eq_error_iff, same, ← ofChars_eq_error_iff, result]

/-! ### Writing -/

theorem flatten_rows (board : Board) : board.rows.flatten = board.toList := by
  have cells : ((List.finRange 9).map fun r => (List.finRange 9).map (cellAt r)).flatten =
      List.finRange 81 := by decide
  rw [toList_eq, ← cells, List.map_flatten, List.map_map]
  rfl

theorem marksOf_toText (board : Board) :
    marksOf board.toText.toList = board.toList.map Digit.toChar := by
  have line : ∀ row ∈ board.rows,
      ((marksOf ∘ String.toList) ∘ digitText) row = List.map Digit.toChar row := by
    intro row _
    rw [Function.comp_apply, Function.comp_apply, digitText, String.toList_ofList]
    apply List.filter_eq_self.mpr
    rw [List.forall_mem_map]
    intro digit _
    rw [Digit.isBlank_toChar, Bool.not_false]
  have feed : "\n".toList = ['\n'] := rfl
  rw [toText, String.toList_intercalate, feed, marksOf_intercalate, List.map_map, List.map_map,
    List.map_congr_left line, ← List.map_flatten, flatten_rows]

/-- A row of the board is a piece of nine of its 81 digits. -/
theorem row_eq (board : Board) (r : Fin 9) :
    (List.finRange 9).map (board.digitAt r) = (board.toList.drop (9 * r)).take 9 := by
  have cells : ∀ r : Fin 9, ((List.finRange 81).drop (9 * r)).take 9 =
      (List.finRange 9).map (cellAt r) := by decide
  rw [toList_eq, ← List.map_drop, ← List.map_take, cells, List.map_map]
  rfl

theorem toText_eq (board : Board) : board.toText = "\n".intercalate ((List.range 9).map fun r =>
    String.ofList (((board.toList.map Digit.toChar).drop (9 * r)).take 9)) := by
  have places : List.range 9 = (List.finRange 9).map Fin.val := by decide
  rw [toText, rows, List.map_map, places, List.map_map]
  congr 1
  apply List.map_congr_left
  intro r _
  rw [Function.comp_apply, Function.comp_apply, digitText, ← List.map_drop, ← List.map_take,
    ← row_eq]

theorem kind_of_ofChars (failed : ofChars chars = .error error) : error.kind = .invalidFormat := by
  rcases ofChars_eq_error_iff.mp failed with ⟨_, _, _, _, _, _, rfl⟩ | ⟨_, _, rfl⟩
  · rfl
  · rfl

end Board

/-! ### Boards typed as a word -/

theorem marksOf_slashes (text : List Char) :
    marksOf (text.map fun c => if c = '/' then '\n' else c) = marksOf (text.filter (· ≠ '/')) := by
  induction text with
  | nil => rfl
  | cons c rest ih =>
      have cons : ∀ text, marksOf (c :: text) = marksOf [c] ++ marksOf text :=
        fun text => marksOf_append [c] text
      by_cases slash : c = '/'
      · subst slash
        exact ih
      · have kept : (c :: rest).filter (· ≠ '/') = c :: rest.filter (· ≠ '/') :=
          List.filter_cons_of_pos (decide_eq_true slash)
        rw [List.map_cons, if_neg slash, kept, cons, ih, ← cons]

namespace Board

/-- White space makes no difference wherever it stands. -/
theorem ofChars_insert {before blanks after : List Char} (blank : ∀ c ∈ blanks, isBlank c = true) :
    ofChars (before ++ blanks ++ after) = ofChars (before ++ after) := by
  apply ofChars_congr
  simp only [marksOf_append, marksOf_blank blank, List.append_nil]

/-- A slash is read as a line end, which is as good as nothing. -/
theorem boardOfText_eq (text : String) : Console.boardOfText text =
    (parse (String.ofList (text.toList.filter (· ≠ '/')))).mapError .badText := by
  rw [Console.boardOfText, parse, String.toList_ofList, ofChars_congr (marksOf_slashes text.toList)]

/-- A board is read exactly from its 81 digits with any white space between them, and what is wrong
    with another text is a first character that is no digit, or else the number of digits. A board
    is written in nine lines of nine digits, and read back from them. A word is read without its
    slashes. -/
theorem read_from_digits :
    (∀ (text : String) (board : Board), parse text = .ok board ↔
      marksOf text.toList = board.toList.map Digit.toChar) ∧
    (∀ text : String, (∃ board, parse text = .ok board) ↔
      (marksOf text.toList).length = 81 ∧ ∀ c ∈ marksOf text.toList, c.isDigit = true) ∧
    (∀ (text : String) (error : Error), (parse text = .error error ↔
      (∃ before c after, marksOf text.toList = before ++ c :: after ∧
        (∀ d ∈ before, d.isDigit = true) ∧ c.isDigit = false ∧ error = .strayCharacter c) ∨
      (∀ c ∈ marksOf text.toList, c.isDigit = true) ∧ (marksOf text.toList).length ≠ 81 ∧
        error = .digitCount (marksOf text.toList).length) ∧
      (parse text = .error error → error.kind = .invalidFormat)) ∧
    (∀ before blanks after : String, (∀ c ∈ blanks.toList, isBlank c = true) →
      parse (before ++ blanks ++ after) = parse (before ++ after)) ∧
    (∀ board : Board, parse board.toText = .ok board) ∧
    (∀ (text : String) (board : Board), parse text = .ok board →
      board.toText = "\n".intercalate ((List.range 9).map fun r =>
        String.ofList (((marksOf text.toList).drop (9 * r)).take 9))) ∧
    ∀ text : String, (Console.boardOfText text).mapError Console.Failure.message =
      (parse (String.ofList (text.toList.filter (· ≠ '/')))).mapError
        fun cause => "Error parsing board: " ++ cause.message := by
  refine ⟨fun text board => ofChars_eq_ok_iff, fun text => exists_ofChars_iff,
    fun text error => ⟨ofChars_eq_error_iff, kind_of_ofChars⟩, fun before blanks after blank => ?_,
    fun board => ofChars_eq_ok_iff.mpr (marksOf_toText board), fun text board read => ?_,
    fun text => ?_⟩
  · simp only [parse, String.toList_append]
    exact ofChars_insert blank
  · rw [ofChars_eq_ok_iff.mp read, toText_eq]
  · rw [boardOfText_eq]
    cases parse (String.ofList (text.toList.filter (· ≠ '/'))) <;> rfl

theorem read_with_blanks : (∀ c ∈ " \n".toList, isBlank c = true) ∧
    parse ("12" ++ " \n" ++ "34") = parse ("12" ++ "34") := by
  have blank : ∀ c ∈ " \n".toList, isBlank c = true := by
    simp [isBlank, inRanges, blankRanges]
  exact ⟨blank, read_from_digits.2.2.2.1 "12" " \n" "34" blank⟩

end Board

end ExactCover
