import Mathlib.Data.Nat.Digits.Defs
import Resumable.Json.Printer
import Resumable.Json.Reader

/-!
# Strings and whole numbers as text

A string is read back from its quoted form, whatever characters it has
(`stringRest_quoted`), and a whole number from its decimal form (`unsigned_toDigits`).  A string
ends at its quote.  A number ends where its digits end, so what stands behind it must not go on
with it (`Stops`).
-/

namespace Resumable.Json

/-! ## Strings -/

/-- What the scanner of a string makes of an escaped character: one that is written with four
hexadecimal digits is their value. -/
def pieceOf (c : Char) : Piece :=
  if c.toNat < 0x20 ∧ c ∉ ['\x08', '\x0c', '\n', '\r', '\t'] then .unit c.toNat else .char c

theorem hexUnit?_digitChar : ∀ n < 0x20,
    hexUnit? '0' '0' (Nat.digitChar (n / 16)) (Nat.digitChar (n % 16)) = some n := by
  decide

theorem pieces_escapedChar (c : Char) (rest : List Char) :
    pieces .plain (escapedChar c ++ rest) =
      (pieces .plain rest).map fun r => (pieceOf c :: r.1, r.2) := by
  unfold escapedChar
  split_ifs with quote backslash b f n r t control
  all_goals try (subst c; rfl)
  · have unit : pieceOf c = .unit c.toNat := by simp [pieceOf, control, b, f, n, r, t]
    have digits := hexUnit?_digitChar c.toNat control
    simp [pieces, digits, unit]
  · have char : pieceOf c = .char c := by simp [pieceOf, control]
    simp [pieces, quote, backslash, control, char]

theorem pieces_escaped (s rest : List Char) :
    pieces .plain (s.flatMap escapedChar ++ '"' :: rest) = some (s.map pieceOf, rest) := by
  induction s with
  | nil => rfl
  | cons c s ih =>
    rw [List.flatMap_cons, List.append_assoc, pieces_escapedChar, ih]
    rfl

theorem joined_unit {n : Nat} (low : n < 0xD800) (rest : List Piece) :
    joined (.unit n :: rest) = (joined rest).map (Char.ofNat n :: ·) := by
  rcases rest with _ | ⟨_ | m, rest⟩
  · simp [joined, Nat.not_le_of_lt low]
  · simp [joined, Nat.not_le_of_lt low]
  · have high : ¬ 0xDC00 ≤ n := by omega
    simp [joined, Nat.not_le_of_lt low, high]

theorem joined_map_pieceOf (s : List Char) : joined (s.map pieceOf) = some s := by
  induction s with
  | nil => rfl
  | cons c s ih =>
    rw [List.map_cons, pieceOf]
    split
    · rename_i control
      rw [joined_unit (by omega), ih, Char.ofNat_toNat]
      rfl
    · rw [joined, ih]
      rfl

/-- A string is read back from behind its opening quote. -/
theorem stringRest_escaped (s : String) (rest : List Char) :
    stringRest (s.toList.flatMap escapedChar ++ '"' :: rest) = some (some s, rest) := by
  rw [stringRest, pieces_escaped, Option.map_some, joined_map_pieceOf, Option.map_some,
    String.ofList_toList]

/-! ## Whole numbers -/

/-- A number does not go on with these characters. -/
def Stops (rest : List Char) : Prop :=
  ∀ c ∈ rest.head?, isDigit c = false ∧ c ≠ '.' ∧ c ≠ 'e' ∧ c ≠ 'E'

theorem isDigit_of_mem_toDigits {n : Nat} {c : Char} (mem : c ∈ Nat.toDigits 10 n) :
    isDigit c = true := by
  have digit := Nat.isDigit_of_mem_toDigits (by decide) (by decide) mem
  simpa [Char.isDigit, isDigit, Char.le_def] using digit

theorem natOfDigits_toDigits (n : Nat) : natOfDigits (Nat.toDigits 10 n) = n := by
  have same : natOfDigits (Nat.toDigits 10 n) = Nat.ofDigitChars 10 (Nat.toDigits 10 n) 0 := by
    unfold natOfDigits Nat.ofDigitChars digitValue
    simp only [Nat.mul_comm]
  rw [same]
  exact Nat.ofDigitChars_toDigits (by decide) (by decide)

/-- Only zero begins with a zero. -/
theorem eq_zero_of_toDigits {n : Nat} {more : List Char} (h : Nat.toDigits 10 n = '0' :: more) :
    n = 0 := by
  induction n using Nat.strongRecOn generalizing more with
  | ind n ih =>
    by_cases small : n < 10
    · rw [Nat.toDigits_of_lt_base small, List.cons.injEq] at h
      have digit : ∀ n < 10, Nat.digitChar n = '0' → n = 0 := by decide
      exact digit n small h.1
    · rw [Nat.toDigits_of_base_le (by decide) (by omega)] at h
      cases front : Nat.toDigits 10 (n / 10) with
      | nil => exact absurd front Nat.toDigits_ne_nil
      | cons c rest =>
        rw [front, List.cons_append, List.cons.injEq] at h
        obtain rfl := h.1
        have := ih (n / 10) (by omega) front
        omega

section

variable {n : Nat} {rest : List Char}

theorem digits_toDigits (stops : Stops rest) :
    digits (Nat.toDigits 10 n ++ rest) = some (Nat.toDigits 10 n, rest) := by
  have all : ∀ c ∈ Nat.toDigits 10 n, isDigit c = true := fun c => isDigit_of_mem_toDigits
  have none : rest.takeWhile isDigit = [] := by
    cases rest with
    | nil => rfl
    | cons c rest => simp [(stops c rfl).1]
  have behind : rest.dropWhile isDigit = rest := by
    cases rest with
    | nil => rfl
    | cons c rest => simp [(stops c rfl).1]
  unfold digits
  rw [List.takeWhile_append_of_pos all, List.dropWhile_append_of_pos all, none, behind,
    List.append_nil]
  split
  · rename_i empty
    exact absurd empty Nat.toDigits_ne_nil
  · rfl

theorem wholeDigits_toDigits (stops : Stops rest) :
    wholeDigits (Nat.toDigits 10 n ++ rest) = some (Nat.toDigits 10 n, rest) := by
  unfold wholeDigits
  rw [digits_toDigits stops]
  split
  · rename_i c more _ same
    rw [Option.some.injEq, Prod.mk.injEq] at same
    obtain rfl := eq_zero_of_toDigits same.1
    cases same.1
  · rfl

theorem fraction_of_stops (stops : Stops rest) : fraction rest = some (false, rest) := by
  unfold fraction
  split
  · exact absurd rfl (stops _ rfl).2.1
  · rfl

theorem exponent_of_stops (stops : Stops rest) : exponent rest = some (false, rest) := by
  unfold exponent
  split
  · exact absurd rfl (stops _ rfl).2.2.1
  · exact absurd rfl (stops _ rfl).2.2.2
  · rfl

/-- A whole number is read back from its digits. -/
theorem unsigned_toDigits (stops : Stops rest) :
    unsigned false (Nat.toDigits 10 n ++ rest) = some (.int n, rest) := by
  unfold unsigned
  rw [wholeDigits_toDigits stops]
  simp [fraction_of_stops stops, exponent_of_stops stops, natOfDigits_toDigits]

/-- A number below zero is read back from the digits behind its sign. -/
theorem unsigned_toDigits_neg (stops : Stops rest) (pos : n ≠ 0) :
    unsigned true (Nat.toDigits 10 n ++ rest) = some (.int (-n), rest) := by
  unfold unsigned
  rw [wholeDigits_toDigits stops]
  simp [fraction_of_stops stops, exponent_of_stops stops, natOfDigits_toDigits, pos]

end

end Resumable.Json
