import OnvifSdk.Gsoap.Wsse

namespace OnvifSdk.Gsoap

open OnvifSdk.Lib

def soapBase64i : List ℕ :=
  [62, 88, 88, 88, 63, 52, 53, 54, 55, 56, 57, 58, 59, 60, 61, 88, 88, 88, 88, 88, 88, 88,
    0, 1, 2, 3, 4, 5, 6, 7, 8, 9, 10, 11, 12, 13, 14, 15, 16, 17, 18, 19, 20, 21, 22, 23, 24, 25,
    88, 88, 88, 88, 88, 88,
    26, 27, 28, 29, 30, 31, 32, 33, 34, 35, 36, 37, 38, 39, 40, 41, 42, 43, 44, 45, 46, 47, 48, 49, 50, 51]

inductive Base64Char
  | digit (b : ℕ)
  | blank
  | invalid
  deriving DecidableEq

-- A `char` from 128 on is negative, so it is neither in the table nor a blank.
def base64Char (c : UInt8) : Base64Char :=
  if 43 ≤ c.toNat ∧ c.toNat ≤ 122 then
    let b := soapBase64i.getD (c.toNat - 43) 88
    if 64 ≤ b then .invalid else .digit b
  else if c.toNat ≤ 32 then .blank
  else .invalid

/-- What `soap_base642s` has stored at `t` when it returns; without `valid` it returns NULL and sets
`soap->error` to `SOAP_TYPE`. -/
structure Decoded where
  bytes : List UInt8
  valid : Bool := true
  deriving DecidableEq

def Decoded.after (d : Decoded) (s : List UInt8) : Decoded := { d with bytes := s ++ d.bytes }

def byteOf (m : ℕ) : UInt8 := UInt8.ofNat (m % 256)

def base64Flush (m j l : ℕ) : List UInt8 :=
  if j = 2 ∧ 1 ≤ l then [byteOf (m / 16)]
  else if j = 3 ∧ 2 ≤ l then [byteOf (m / 1024), byteOf (m / 4)]
  else []

-- `m` and `j` are the bits and the number of the digits read since the last group of four.
def base642sLoop : ℕ → ℕ → ℕ → List UInt8 → Decoded
  | m, j, l, [] => { bytes := base64Flush m j l }
  | m, j, l, c :: s =>
    if c = base64Pad then { bytes := base64Flush m j l }
    else
      match base64Char c with
      | .invalid => { bytes := [], valid := false }
      | .blank => base642sLoop m j l s
      | .digit b =>
        let m := m * 64 + b
        if j < 3 then base642sLoop m (j + 1) l s
        else if l < 3 then { bytes := [] }
        else (base642sLoop 0 0 (l - 3) s).after [byteOf (m / 65536), byteOf (m / 256), byteOf m]

def soapBase642s (l : ℕ) (s : CStr) : Decoded := base642sLoop 0 0 l s.bytes

def base64Room (s : CStr) : ℕ := (s.length + 3) / 4 * 3 + 1

@[simp] theorem base64Char_digit {i : ℕ} (h : i < 64) : base64Char (base64Digit i) = .digit i := by
  have table : ∀ i < 64, base64Char (base64Digit i) = .digit i := by decide +kernel
  exact table i h

theorem base64Digit_ne_pad (m : ℕ) : base64Digit m ≠ base64Pad := by
  have table : ∀ i < 64, soapBase64o.getD i 65 ≠ base64Pad := by decide +kernel
  exact table (m % 64) (Nat.mod_lt m (by omega))

theorem base64Digit_mod (m : ℕ) : base64Digit (m % 64) = base64Digit m := by
  simp only [base64Digit, Nat.mod_mod]

theorem base642sLoop_digit (m j l n : ℕ) (s : List UInt8) :
    base642sLoop m j l (base64Digit n :: s) =
      if j < 3 then base642sLoop (m * 64 + n % 64) (j + 1) l s
      else if l < 3 then { bytes := [] }
      else (base642sLoop 0 0 (l - 3) s).after
        [byteOf ((m * 64 + n % 64) / 65536), byteOf ((m * 64 + n % 64) / 256), byteOf (m * 64 + n % 64)] := by
  have hc : base64Char (base64Digit n) = .digit (n % 64) := by
    rw [← base64Digit_mod, base64Char_digit (Nat.mod_lt n (by omega))]
  simp only [base642sLoop, if_neg (base64Digit_ne_pad n), hc]

theorem base642sLoop_pad (m j l : ℕ) (s : List UInt8) :
    base642sLoop m j l (base64Pad :: s) = { bytes := base64Flush m j l } := by
  simp only [base642sLoop, ↓reduceIte]

theorem byteOf_eq {m : ℕ} {b : UInt8} (h : m % 256 = b.toNat) : byteOf m = b := by
  rw [byteOf, h, UInt8.ofNat_toNat]

theorem base642sLoop_soapS2base64 (s : List UInt8) {l : ℕ} (hl : s.length ≤ l) :
    base642sLoop 0 0 l (soapS2base64 s) = { bytes := s } := by
  induction s using soapS2base64.induct generalizing l with
  | case1 => rfl
  | case2 a =>
    have ha := a.toNat_lt
    have hl' : 1 ≤ l := hl
    simp only [soapS2base64, base642sLoop_digit, base642sLoop_pad]
    simp only [Nat.reduceLT, ↓reduceIte, base64Flush, Nat.reduceAdd, true_and, hl']
    rw [byteOf_eq (b := a) (by omega)]
  | case3 a b =>
    have ha := a.toNat_lt
    have hb := b.toNat_lt
    have hl' : 2 ≤ l := hl
    simp only [soapS2base64, base642sLoop_digit, base642sLoop_pad]
    simp only [Nat.reduceLT, ↓reduceIte, base64Flush, Nat.reduceAdd, true_and, hl', Nat.reduceEqDiff, false_and]
    rw [byteOf_eq (b := a) (by omega), byteOf_eq (b := b) (by omega)]
  | case4 a b c s ih =>
    have ha := a.toNat_lt
    have hb := b.toNat_lt
    have hc := c.toNat_lt
    simp only [List.length_cons] at hl
    simp only [soapS2base64, base642sLoop_digit, Nat.reduceLT, ↓reduceIte, if_neg (show ¬ l < 3 by omega)]
    rw [ih (l := l - 3) (by omega), byteOf_eq (b := a) (by omega), byteOf_eq (b := b) (by omega),
      byteOf_eq (b := c) (by omega)]
    rfl

theorem soapBase642s_base64 (s : List UInt8) {l : ℕ} (hl : s.length ≤ l) :
    soapBase642s l (base64 s) = { bytes := s } := base642sLoop_soapS2base64 s hl

theorem base642sLoop_after_pad (m j l : ℕ) (s t : List UInt8) :
    base642sLoop m j l (s ++ base64Pad :: t) = base642sLoop m j l (s ++ [base64Pad]) := by
  induction s generalizing m j l with
  | nil => simp only [List.nil_append, base642sLoop_pad]
  | cons c s ih =>
    by_cases hc : c = base64Pad
    · simp only [hc, List.cons_append, base642sLoop_pad]
    · simp only [List.cons_append, base642sLoop, hc, ↓reduceIte]
      cases base64Char c with
      | invalid => rfl
      | blank => exact ih m j l
      | digit b => simp only [ih]

theorem base64Flush_room (m : ℕ) {j l l' : ℕ} (h : (j + 3) / 4 * 3 ≤ l) (h' : (j + 3) / 4 * 3 ≤ l') :
    base64Flush m j l = base64Flush m j l' := by
  by_cases h2 : j = 2
  · simp [base64Flush, h2, show 1 ≤ l by omega, show 1 ≤ l' by omega]
  · by_cases h3 : j = 3
    · simp [base64Flush, h3, show 2 ≤ l by omega, show 2 ≤ l' by omega]
    · simp [base64Flush, h2, h3]

/-- Room for three bytes of every group that is left is room enough. -/
theorem base642sLoop_room (m : ℕ) {j l l' : ℕ} (s : List UInt8) (hj : j < 4) (hl : (j + s.length + 3) / 4 * 3 ≤ l)
    (hl' : (j + s.length + 3) / 4 * 3 ≤ l') : base642sLoop m j l s = base642sLoop m j l' s := by
  induction s generalizing m j l l' with
  | nil => rw [base642sLoop, base642sLoop, base64Flush_room m (j := j) hl hl']
  | cons c s ih =>
    simp only [List.length_cons] at hl hl'
    have hend : (j + 3) / 4 * 3 ≤ (j + (s.length + 1) + 3) / 4 * 3 :=
      Nat.mul_le_mul_right 3 (Nat.div_le_div_right (by omega))
    have hskip : (j + s.length + 3) / 4 * 3 ≤ (j + (s.length + 1) + 3) / 4 * 3 :=
      Nat.mul_le_mul_right 3 (Nat.div_le_div_right (by omega))
    by_cases hc : c = base64Pad
    · simp only [hc, base642sLoop_pad, base64Flush_room m (hend.trans hl) (hend.trans hl')]
    · simp only [base642sLoop, hc, ↓reduceIte]
      cases base64Char c with
      | invalid => rfl
      | blank => exact ih m hj (hskip.trans hl) (hskip.trans hl')
      | digit b =>
        by_cases h3 : j < 3
        · have hnext : (j + 1 + s.length + 3) / 4 * 3 = (j + (s.length + 1) + 3) / 4 * 3 := by
            rw [show j + 1 + s.length + 3 = j + (s.length + 1) + 3 by omega]
          simp only [h3, ↓reduceIte]
          exact ih _ (by omega) (hnext.trans_le hl) (hnext.trans_le hl')
        · have hj3 : j = 3 := by omega
          subst hj3
          simp only [lt_irrefl, ↓reduceIte, if_neg (show ¬ l < 3 by omega), if_neg (show ¬ l' < 3 by omega)]
          have hrest : base642sLoop 0 0 (l - 3) s = base642sLoop 0 0 (l' - 3) s :=
            ih 0 (by omega) (by omega) (by omega)
          rw [hrest]

end OnvifSdk.Gsoap
