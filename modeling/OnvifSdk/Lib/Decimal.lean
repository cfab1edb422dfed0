import Mathlib

namespace OnvifSdk.Lib

def isSpace (c : UInt8) : Bool := c = 32 || 9 ≤ c && c ≤ 13

def isDigit (c : UInt8) : Bool := 48 ≤ c && c ≤ 57

def numeral (s : List UInt8) : ℕ := s.foldl (fun n c => 10 * n + (c.toNat - 48)) 0

structure Scanned where
  negative : Bool
  digits : List UInt8
  rest : List UInt8

def scanSign : List UInt8 → Bool × List UInt8
  | 45 :: s => (true, s)
  | 43 :: s => (false, s)
  | s => (false, s)

/-- The number at the start of a text, with the blanks and the sign that C allows before it. -/
def scanNumber (s : List UInt8) : Option Scanned :=
  let (negative, t) := scanSign (s.dropWhile isSpace)
  let digits := t.takeWhile isDigit
  if digits = [] then none else some ⟨negative, digits, t.drop digits.length⟩

-- `strtoul(s, &t, 10)` and `strtol(s, &t, 10)` on a 64-bit machine, with the text left at `t`.
def strtoulEnd (s : List UInt8) : ℕ × List UInt8 :=
  match scanNumber s with
  | none => (0, s)
  | some n =>
    let v := numeral n.digits
    if 2 ^ 64 ≤ v then (2 ^ 64 - 1, n.rest)
    else if n.negative then ((2 ^ 64 - v) % 2 ^ 64, n.rest)
    else (v, n.rest)

def strtolEnd (s : List UInt8) : ℤ × List UInt8 :=
  match scanNumber s with
  | none => (0, s)
  | some n =>
    let v := numeral n.digits
    if n.negative then (max (-2 ^ 63) (-(v : ℤ)), n.rest) else (min (2 ^ 63 - 1) (v : ℤ), n.rest)

/-- A number as an `int`. -/
def int32 (n : ℤ) : ℤ := n.bmod (2 ^ 32)

def digitByte (d : ℕ) : UInt8 := UInt8.ofNat (48 + d)

def twoDigits (n : ℕ) : List UInt8 := [digitByte (n / 10), digitByte (n % 10)]

def decimal (n : ℕ) : List UInt8 := if n = 0 then [48] else (Nat.digits 10 n).reverse.map digitByte

/-- A text of digits, such that the number ends where the text does. -/
structure Digits (s rest : List UInt8) : Prop where
  nonempty : s ≠ []
  digit : ∀ c ∈ s, isDigit c = true
  ends : ∀ c ∈ rest.head?, isDigit c = false

theorem int32_eq {n : ℤ} (h : -2 ^ 31 ≤ n) (h' : n < 2 ^ 31) : int32 n = n := by
  rw [int32, Int.bmod_eq_of_le] <;> omega

theorem digitByte_toNat {d : ℕ} (h : d < 10) : (digitByte d).toNat = 48 + d := by
  simp only [digitByte, UInt8.toNat_ofNat']
  omega

theorem isDigit_digitByte {d : ℕ} (h : d < 10) : isDigit (digitByte d) = true := by
  have := digitByte_toNat h
  simp only [isDigit, Bool.and_eq_true, decide_eq_true_eq, UInt8.le_iff_toNat_le, this]
  exact ⟨Nat.le_add_right 48 d, show 48 + d ≤ 57 by omega⟩

theorem numeral_append (s : List UInt8) (c : UInt8) :
    numeral (s ++ [c]) = 10 * numeral s + (c.toNat - 48) := by
  simp only [numeral, List.foldl_append, List.foldl_cons, List.foldl_nil]

theorem numeral_digits (ds : List ℕ) (h : ∀ d ∈ ds, d < 10) :
    numeral (ds.reverse.map digitByte) = Nat.ofDigits 10 ds := by
  induction ds with
  | nil => rfl
  | cons d ds ih =>
    have hd : (digitByte d).toNat - 48 = d := by
      rw [digitByte_toNat (h d List.mem_cons_self)]
      omega
    rw [List.reverse_cons, List.map_append, List.map_singleton, numeral_append, hd,
      ih (fun e he => h e (List.mem_cons_of_mem d he)), Nat.ofDigits_cons]
    omega

@[simp] theorem numeral_decimal (n : ℕ) : numeral (decimal n) = n := by
  unfold decimal
  split_ifs with h
  · rw [h]; rfl
  · rw [numeral_digits _ (fun d hd => Nat.digits_lt_base (by omega) hd), Nat.ofDigits_digits]

theorem numeral_twoDigits {n : ℕ} (h : n < 100) : numeral (twoDigits n) = n := by
  simp only [numeral, twoDigits, List.foldl_cons, List.foldl_nil,
    digitByte_toNat (show n / 10 < 10 by omega), digitByte_toNat (show n % 10 < 10 by omega)]
  omega

theorem Digits.decimal (n : ℕ) {rest : List UInt8} (h : ∀ c ∈ rest.head?, isDigit c = false) :
    Digits (decimal n) rest := by
  by_cases hn : n = 0
  · subst hn
    exact ⟨by simp [Lib.decimal], by simp [Lib.decimal, isDigit], h⟩
  · refine ⟨?_, ?_, h⟩
    · simp [Lib.decimal, hn, Nat.digits_eq_nil_iff_eq_zero]
    · intro c hc
      simp only [Lib.decimal, hn, ↓reduceIte, List.mem_map, List.mem_reverse] at hc
      obtain ⟨d, hd, rfl⟩ := hc
      exact isDigit_digitByte (Nat.digits_lt_base (by omega) hd)

theorem Digits.two {n : ℕ} (hn : n < 100) {rest : List UInt8}
    (h : ∀ c ∈ rest.head?, isDigit c = false) : Digits (twoDigits n) rest := by
  refine ⟨nofun, ?_, h⟩
  intro c hc
  rcases List.mem_pair.mp hc with rfl | rfl
  · exact isDigit_digitByte (by omega)
  · exact isDigit_digitByte (by omega)

theorem Digits.decimal_end (n : ℕ) : Digits (Lib.decimal n) [] := .decimal n nofun

theorem Digits.two_end {n : ℕ} (hn : n < 100) : Digits (twoDigits n) [] := .two hn nofun

theorem isDigit_bounds {c : UInt8} (h : isDigit c = true) : 48 ≤ c.toNat ∧ c.toNat ≤ 57 := by
  simp only [isDigit, Bool.and_eq_true, decide_eq_true_eq, UInt8.le_iff_toNat_le] at h
  exact h

theorem Digits.takeWhile {s rest : List UInt8} (h : Digits s rest) :
    (s ++ rest).takeWhile isDigit = s := by
  rw [List.takeWhile_append_of_pos h.digit]
  cases rest with
  | nil => simp
  | cons c rest => simp [h.ends c rfl]

theorem Digits.scanned {s rest : List UInt8} (h : Digits s rest) (t : List UInt8) (negative : Bool)
    (ht : scanSign (t.dropWhile isSpace) = (negative, s ++ rest)) :
    scanNumber t = some ⟨negative, s, rest⟩ := by
  simp only [scanNumber, ht, h.takeWhile, h.nonempty, ↓reduceIte, List.drop_left]

theorem Digits.scanSign {s rest : List UInt8} (h : Digits s rest) :
    scanSign ((s ++ rest).dropWhile isSpace) = (false, s ++ rest) := by
  obtain ⟨c, s, rfl⟩ := List.exists_cons_of_ne_nil h.nonempty
  obtain ⟨hl, hu⟩ := isDigit_bounds (h.digit c List.mem_cons_self)
  have hs : isSpace c = false := by
    simp only [isSpace, Bool.or_eq_false_iff, Bool.and_eq_false_iff, decide_eq_false_iff_not,
      UInt8.le_iff_toNat_le, ← UInt8.toNat_inj]
    exact ⟨by intro he; simp at he; omega, .inr (by simp; omega)⟩
  have h45 : c ≠ 45 := by rintro rfl; simp at hl
  have h43 : c ≠ 43 := by rintro rfl; simp at hl
  rw [List.cons_append, List.dropWhile_cons_of_neg (by simp [hs])]
  unfold Lib.scanSign
  split
  · rename_i he; exact absurd (List.cons.inj he).1 h45
  · rename_i he; exact absurd (List.cons.inj he).1 h43
  · rfl

theorem strtoulEnd_digits {s rest : List UInt8} (h : Digits s rest) (hv : numeral s < 2 ^ 64) :
    strtoulEnd (s ++ rest) = (numeral s, rest) := by
  simp only [strtoulEnd, h.scanned _ _ h.scanSign, if_neg (Nat.not_le.mpr hv), Bool.false_eq_true, ↓reduceIte]

theorem strtolEnd_digits {s rest : List UInt8} (h : Digits s rest) (hv : numeral s < 2 ^ 63) :
    strtolEnd (s ++ rest) = ((numeral s : ℤ), rest) := by
  have hm : min (2 ^ 63 - 1) (numeral s : ℤ) = numeral s := by omega
  simp only [strtolEnd, h.scanned _ _ h.scanSign, hm, Bool.false_eq_true, ↓reduceIte]

def signByte (negative : Bool) : UInt8 := if negative then 45 else 43

theorem strtolEnd_signed {s rest : List UInt8} (h : Digits s rest) (hv : numeral s < 2 ^ 63)
    (negative : Bool) :
    strtolEnd (signByte negative :: (s ++ rest)) =
      (if negative then -(numeral s : ℤ) else numeral s, rest) := by
  have ht : Lib.scanSign ((signByte negative :: (s ++ rest)).dropWhile isSpace) = (negative, s ++ rest) := by
    cases negative <;> simp [signByte, isSpace, Lib.scanSign]
  have hm : min (2 ^ 63 - 1) (numeral s : ℤ) = numeral s := by omega
  have hm' : max (-2 ^ 63) (-(numeral s : ℤ)) = -(numeral s : ℤ) := by omega
  simp only [strtolEnd, h.scanned _ _ ht, hm, hm']
  cases negative <;> rfl

end OnvifSdk.Lib
