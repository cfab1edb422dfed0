import OnvifSdk.Gsoap.Context
import OnvifSdk.Lib.Calendar
import OnvifSdk.Lib.Decimal

namespace OnvifSdk.Gsoap

open OnvifSdk.Lib

def soapType : ℤ := 4
def soapEmpty : ℤ := 52

structure Tm where
  sec : ℤ := 0
  min : ℤ := 0
  hour : ℤ := 0
  mday : ℤ := 0
  mon : ℤ := 0
  year : ℤ := 0
  deriving DecidableEq

def timegm (t : Tm) : ℤ :=
  Calendar.dayNumber (1900 + t.year) (t.mon + 1) t.mday * 86400 + t.hour * 3600 + t.min * 60 + t.sec

def gmtime (n : ℕ) : Tm :=
  let d := Calendar.dateOf (n / 86400)
  { sec := n % 60
    min := n / 60 % 60
    hour := n / 3600 % 24
    mday := d.day
    mon := d.month - 1
    year := d.year - 1900 }

def Tm.text (T : Tm) : List UInt8 :=
  decimal T.year.toNat ++ 45 :: twoDigits T.mon.toNat ++ 45 :: twoDigits T.mday.toNat ++
    84 :: twoDigits T.hour.toNat ++ 58 :: twoDigits T.min.toNat ++ 58 :: twoDigits T.sec.toNat

def Tm.civil (T : Tm) : Tm := { T with year := 1900 + T.year, mon := T.mon + 1 }

-- `%Y-%m-%dT%H:%M:%S`, for a year of at least four digits.
def strftime (T : Tm) : List UInt8 := T.civil.text

-- `gmtime_r` fails when the year does not fit the `int` of `tm_year`.
def soapDateTime2s (n : ℕ) : CStr :=
  if (gmtime n).year < 2 ^ 31 then cstring (strftime (gmtime n) ++ [90])
  else .lit "1969-12-31T23:59:59Z"

def past : List UInt8 → Outcome (List UInt8)
  | [] => .error .memory
  | _ :: s => .ok s

def dateFields (strict : Bool) (s : List UInt8) : Outcome (Option (Tm × List UInt8)) := do
  let (d, t) := strtoulEnd s
  if t.head? = some 45 then
    let (mon, t) := strtoulEnd t.tail
    let t ← past t
    let (mday, t) := strtoulEnd t
    return some ({ year := int32 d, mon := int32 mon, mday := int32 mday }, t)
  else if !strict then
    return some ({ year := int32 (d / 10000 : ℕ), mon := (d / 100 % 100 : ℕ), mday := (d % 100 : ℕ) }, t)
  else return none

def timeFields (strict : Bool) (T : Tm) (t : List UInt8) : Outcome (Option (Tm × List UInt8)) :=
  if t.head? = some 84 ∨ (t.head? = some 116 ∨ t.head? = some 32) ∧ !strict then do
    let (d, t) := strtoulEnd t.tail
    if t.head? = some 58 then
      let (min, t) := strtoulEnd t.tail
      let t ← past t
      let (sec, t) := strtoulEnd t
      return some ({ T with hour := int32 d, min := int32 min, sec := int32 sec }, t)
    else if !strict then
      return some ({ T with hour := int32 (d / 10000 : ℕ), min := (d / 100 % 100 : ℕ), sec := (d % 100 : ℕ) }, t)
    else return none
  else .ok (some (T, t))

def zoneFields (strict : Bool) (t : List UInt8) : ℤ × ℤ × List UInt8 :=
  let (m, t) := strtolEnd t
  let m := int32 m
  if t.head? = some 58 then
    let h := m
    let (m, t) := strtolEnd t.tail
    let m := int32 m
    (h, if h < 0 then int32 (-m) else m, t)
  else if !strict then (m.tdiv 100, m.tmod 100, t)
  else (m, 0, t)

-- Signed overflow, which C leaves undefined, wraps around here.
def Tm.shift (T : Tm) (h m : ℤ) : Tm :=
  let min := int32 (T.min - m)
  let hour := int32 (T.hour - h)
  let hour := int32 (hour + min.tdiv 60)
  let min := min.tmod 60
  let (min, hour) := if min < 0 then (min + 60, int32 (hour - 1)) else (min, hour)
  let mday := int32 (T.mday + hour.tdiv 24)
  let hour := hour.tmod 24
  let (hour, mday) := if hour < 0 then (hour + 24, int32 (mday - 1)) else (hour, mday)
  { T with min := min, hour := hour, mday := mday }

def Tm.counted (T : Tm) : Tm :=
  { T with
    year := if T.year = 1 then 70 else int32 (T.year - 1900)
    mon := int32 (T.mon - 1) }

def skipFraction (t : List UInt8) : List UInt8 :=
  if t.head? = some 46 then t.tail.dropWhile isDigit else t

def skipBlank (strict : Bool) (t : List UInt8) : List UInt8 :=
  if t.head? = some 32 ∧ !strict then t.tail else t

def zonedTime (strict : Bool) (mktime : Tm → ℤ) (T : Tm) (t : List UInt8) : Option ℤ :=
  if t = [] then some (mktime T)
  else if t.head? = some 43 ∨ t.head? = some 45 then
    let (h, m, t) := zoneFields strict t
    if t ≠ [] then none else some (timegm (T.shift h m))
  else if t.head? ≠ some 90 then none
  else some (timegm T)

/-- `soap_s2dateTime`: the code that it returns and the time that it leaves in `*p`. A local time
without zone is up to `mktime` and the zone of the host. -/
def soapS2dateTime (strict : Bool) (mktime : Tm → ℤ) (error : ℤ) : Ptr CStr → Outcome (ℤ × ℤ)
  | none => .ok (error, 0)
  | some s =>
    if s.bytes = [] then .ok (soapEmpty, 0)
    else do
      let some (T, t) ← dateFields strict s.bytes | return (soapType, 0)
      let some (T, t) ← timeFields strict T t | return (soapType, 0)
      match zonedTime strict mktime T.counted (skipBlank strict (skipFraction t)) with
      | some p => return (error, p)
      | none => return (soapType, 0)

theorem tdiv_bounds (n : ℤ) {k : ℤ} (hk : 0 < k) :
    k * n.tdiv k + n.tmod k = n ∧ -k < n.tmod k ∧ n.tmod k < k :=
  ⟨Int.mul_tdiv_add_tmod n k, Int.lt_tmod_of_pos n hk, Int.tmod_lt_of_pos n hk⟩

theorem timegm_shift {T : Tm} (hmin : 0 ≤ T.min ∧ T.min < 60) (hhour : 0 ≤ T.hour ∧ T.hour < 24)
    (hmday : 0 ≤ T.mday ∧ T.mday < 100) {h m : ℤ} (hh : -100 < h ∧ h < 100) (hm : -100 < m ∧ m < 100) :
    timegm (T.shift h m) = timegm T - h * 3600 - m * 60 := by
  have hd (d n : ℤ) : Calendar.dayNumber (1900 + T.year) (T.mon + 1) (d + n) =
      Calendar.dayNumber (1900 + T.year) (T.mon + 1) d + n := Calendar.dayNumber_add ..
  have h₁ : int32 (T.min - m) = T.min - m := int32_eq (by omega) (by omega)
  have h₂ : int32 (T.hour - h) = T.hour - h := int32_eq (by omega) (by omega)
  obtain ⟨hq, hl, hu⟩ := tdiv_bounds (T.min - m) (show (0 : ℤ) < 60 by omega)
  have h₃ : int32 (T.hour - h + (T.min - m).tdiv 60) = T.hour - h + (T.min - m).tdiv 60 :=
    int32_eq (by omega) (by omega)
  simp only [Tm.shift, h₁, h₂, h₃]
  generalize (T.min - m).tdiv 60 = q at *
  generalize (T.min - m).tmod 60 = r at *
  obtain ⟨hour, min, hhour', hmin'⟩ : ∃ hour min, (if r < 0 then (r + 60, int32 (T.hour - h + q - 1))
      else (r, T.hour - h + q)) = (min, hour) ∧ hour * 60 + min = (T.hour - h + q) * 60 + r ∧
        -200 < hour ∧ hour < 200 := by
    split_ifs with hr
    · rw [int32_eq (by omega) (by omega)]
      exact ⟨_, _, rfl, by omega, by omega, by omega⟩
    · exact ⟨_, _, rfl, by omega, by omega, by omega⟩
  simp only [hhour']
  obtain ⟨hq', hl', hu'⟩ := tdiv_bounds hour (show (0 : ℤ) < 24 by omega)
  have h₄ : int32 (T.mday + hour.tdiv 24) = T.mday + hour.tdiv 24 := int32_eq (by omega) (by omega)
  simp only [h₄]
  generalize hour.tdiv 24 = q' at *
  generalize hour.tmod 24 = r' at *
  split_ifs with hr'
  · rw [int32_eq (by omega) (by omega)]
    simp only [timegm, hd, sub_eq_add_neg]
    omega
  · simp only [timegm, hd]
    omega

structure Tm.Written (T : Tm) : Prop where
  year : 1970 ≤ T.year ∧ T.year < 2 ^ 31
  mon : 1 ≤ T.mon ∧ T.mon < 100
  mday : 1 ≤ T.mday ∧ T.mday < 100
  hour : 0 ≤ T.hour ∧ T.hour < 24
  min : 0 ≤ T.min ∧ T.min < 60
  sec : 0 ≤ T.sec ∧ T.sec < 100

theorem strtoulEnd_two {n : ℤ} (hn : 0 ≤ n ∧ n < 100) {rest : List UInt8}
    (h : ∀ c ∈ rest.head?, isDigit c = false) :
    strtoulEnd (twoDigits n.toNat ++ rest) = (n.toNat, rest) := by
  have hl : n.toNat < 100 := by omega
  rw [strtoulEnd_digits (Digits.two hl h) (by rw [numeral_twoDigits hl]; omega), numeral_twoDigits hl]

theorem int32_toNat {n : ℤ} (h : 0 ≤ n ∧ n < 2 ^ 31) : int32 (n.toNat : ℤ) = n := by
  rw [Int.toNat_of_nonneg h.1]
  exact int32_eq (by omega) h.2

theorem dateFields_text {T : Tm} (hT : T.Written) (strict : Bool) {rest : List UInt8}
    (h : ∀ c ∈ rest.head?, isDigit c = false) :
    dateFields strict (decimal T.year.toNat ++ 45 :: (twoDigits T.mon.toNat ++
        45 :: (twoDigits T.mday.toNat ++ rest))) =
      .ok (some ({ year := T.year, mon := T.mon, mday := T.mday }, rest)) := by
  obtain ⟨hy, hmon, hmday, _, _, _⟩ := hT
  have hd : ∀ (s : List UInt8), ∀ c ∈ (45 :: s).head?, isDigit c = false := by
    intro s c hc
    cases hc
    rfl
  have hyear := strtoulEnd_digits (Digits.decimal T.year.toNat (hd (twoDigits T.mon.toNat ++
    45 :: (twoDigits T.mday.toNat ++ rest)))) (by rw [numeral_decimal]; omega)
  rw [numeral_decimal] at hyear
  simp only [dateFields, hyear, List.head?_cons, List.tail_cons, ↓reduceIte,
    strtoulEnd_two (n := T.mon) (by omega) (hd _), past, bind, Except.bind, pure, Except.pure,
    strtoulEnd_two (n := T.mday) (by omega) h, int32_toNat (n := T.year) (by omega),
    int32_toNat (n := T.mon) (by omega), int32_toNat (n := T.mday) (by omega)]

theorem timeFields_text {T : Tm} (hT : T.Written) (strict : Bool) {rest : List UInt8}
    (h : ∀ c ∈ rest.head?, isDigit c = false) :
    timeFields strict { year := T.year, mon := T.mon, mday := T.mday }
        (84 :: (twoDigits T.hour.toNat ++ 58 :: (twoDigits T.min.toNat ++
          58 :: (twoDigits T.sec.toNat ++ rest)))) = .ok (some (T, rest)) := by
  obtain ⟨_, _, _, hhour, hmin, hsec⟩ := hT
  have hd : ∀ (s : List UInt8), ∀ c ∈ (58 :: s).head?, isDigit c = false := by
    intro s c hc
    cases hc
    rfl
  simp only [timeFields, List.head?_cons, List.tail_cons, true_or, ↓reduceIte,
    strtoulEnd_two (n := T.hour) (by omega) (hd _), strtoulEnd_two (n := T.min) (by omega) (hd _),
    past, bind, Except.bind, pure, Except.pure, strtoulEnd_two (n := T.sec) (by omega) h,
    int32_toNat (n := T.hour) (by omega), int32_toNat (n := T.min) (by omega),
    int32_toNat (n := T.sec) (by omega)]

theorem Tm.text_append (T : Tm) (rest : List UInt8) : T.text ++ rest =
    decimal T.year.toNat ++ 45 :: (twoDigits T.mon.toNat ++ 45 :: (twoDigits T.mday.toNat ++
      84 :: (twoDigits T.hour.toNat ++ 58 :: (twoDigits T.min.toNat ++
        58 :: (twoDigits T.sec.toNat ++ rest))))) := by
  simp only [Tm.text, List.append_assoc, List.cons_append]

theorem soapS2dateTime_text {T : Tm} (hT : T.Written) (strict : Bool) (mktime : Tm → ℤ) (error : ℤ)
    {rest : List UInt8} (h : ∀ c ∈ rest.head?, isDigit c = false) {s : CStr}
    (hs : s.bytes = T.text ++ rest) {p : ℤ}
    (hp : zonedTime strict mktime T.counted (skipBlank strict (skipFraction rest)) = some p) :
    soapS2dateTime strict mktime error (some s) = .ok (error, p) := by
  have hne : s.bytes ≠ [] := by
    rw [hs]
    simp [Tm.text]
  have hd : ∀ (s : List UInt8), ∀ c ∈ (84 :: s).head?, isDigit c = false := by
    intro s c hc
    cases hc
    rfl
  have hdate := dateFields_text hT strict (hd (twoDigits T.hour.toNat ++ 58 :: (twoDigits T.min.toNat ++
    58 :: (twoDigits T.sec.toNat ++ rest))))
  rw [← Tm.text_append, ← hs] at hdate
  simp only [soapS2dateTime, hne, ↓reduceIte, hdate, timeFields_text hT strict h, bind, Except.bind, hp,
    pure, Except.pure]

inductive Zone
  | utc
  | offset (negative : Bool) (h m : ℕ)
  | basic (negative : Bool) (h m : ℕ)
  | hours (negative : Bool) (h : ℕ)

namespace Zone

def text : Zone → List UInt8
  | utc => [90]
  | offset negative h m => signByte negative :: (twoDigits h ++ 58 :: twoDigits m)
  | basic negative h m => signByte negative :: (twoDigits h ++ twoDigits m)
  | hours negative h => signByte negative :: twoDigits h

def seconds : Zone → ℤ
  | utc => 0
  | offset negative h m | basic negative h m =>
    if negative then -(h * 3600 + m * 60 : ℤ) else h * 3600 + m * 60
  | hours negative h => if negative then -(h * 3600 : ℤ) else h * 3600

def Written (strict : Bool) : Zone → Prop
  | utc => True
  | offset _ h m => h < 100 ∧ m < 100
  | basic _ h m => strict = false ∧ h < 100 ∧ m < 100
  | hours _ h => h < 100

def Lost (strict : Bool) : Zone → Prop
  | offset negative h m => negative = true ∧ h = 0 ∧ m ≠ 0
  | hours _ h => strict = false ∧ h ≠ 0
  | _ => False

/-- The shift that `soap_s2dateTime` applies: the sign of `-00:mm` is lost, and outside the strict
mode `+hh` is taken for minutes. -/
def applied (strict : Bool) : Zone → ℤ
  | utc => 0
  | offset negative h m =>
    if negative = true ∧ h ≠ 0 then -(h * 3600 + m * 60 : ℤ) else h * 3600 + m * 60
  | basic negative h m => if negative then -(h * 3600 + m * 60 : ℤ) else h * 3600 + m * 60
  | hours negative h =>
    let t : ℤ := if strict then h * 3600 else h * 60
    if negative then -t else t

theorem applied_eq_iff (strict : Bool) (z : Zone) : z.applied strict = z.seconds ↔ ¬ z.Lost strict := by
  cases z with
  | utc => simp [applied, seconds, Lost]
  | offset negative h m =>
    cases negative
    · simp [applied, seconds, Lost]
    · simp [applied, seconds, Lost]
      omega
  | basic negative h m => simp [applied, seconds, Lost]
  | hours negative h =>
    cases strict <;> cases negative <;> simp [applied, seconds, Lost]

end Zone

theorem numeral_two_two {h m : ℕ} (hh : h < 100) (hm : m < 100) :
    numeral (twoDigits h ++ twoDigits m) = h * 100 + m := by
  have hm' := numeral_twoDigits hm
  simp only [numeral, twoDigits, List.cons_append, List.nil_append, List.foldl_cons, List.foldl_nil,
    digitByte_toNat (show h / 10 < 10 by omega), digitByte_toNat (show h % 10 < 10 by omega),
    digitByte_toNat (show m / 10 < 10 by omega), digitByte_toNat (show m % 10 < 10 by omega)]
  omega

theorem zoneFields_offset (strict : Bool) (negative : Bool) {h m : ℕ} (hh : h < 100) (hm : m < 100) :
    ∃ a b, zoneFields strict (Zone.offset negative h m).text = (a, b, []) ∧ -100 < a ∧ a < 100 ∧
      -100 < b ∧ b < 100 ∧ a * 3600 + b * 60 = (Zone.offset negative h m).applied strict := by
  have hd : ∀ c ∈ (58 :: twoDigits m).head?, isDigit c = false := by
    intro c hc
    cases hc
    rfl
  have h₁ := strtolEnd_signed (Digits.two hh hd) (by rw [numeral_twoDigits hh]; omega) negative
  have h₂ := strtolEnd_digits (.two_end hm) (by rw [numeral_twoDigits hm]; omega)
  rw [numeral_twoDigits hh] at h₁
  rw [numeral_twoDigits hm, List.append_nil] at h₂
  have hi : int32 (if negative then -(h : ℤ) else h) = if negative then -(h : ℤ) else h := by
    apply int32_eq <;> split_ifs <;> omega
  have hj : int32 (m : ℤ) = m := int32_eq (by omega) (by omega)
  have hj' : int32 (-(m : ℤ)) = -m := int32_eq (by omega) (by omega)
  simp only [zoneFields, Zone.text, h₁, List.head?_cons, List.tail_cons, ↓reduceIte, h₂, hi, hj, hj']
  refine ⟨_, _, rfl, ?_⟩
  cases negative <;> simp only [Zone.applied, Bool.false_eq_true, ↓reduceIte, true_and, false_and] <;>
    split_ifs <;> omega

theorem zoneFields_basic (negative : Bool) {h m : ℕ} (hh : h < 100) (hm : m < 100) :
    ∃ a b, zoneFields false (Zone.basic negative h m).text = (a, b, []) ∧ -100 < a ∧ a < 100 ∧
      -100 < b ∧ b < 100 ∧ a * 3600 + b * 60 = (Zone.basic negative h m).applied false := by
  have hdigits : Digits (twoDigits h ++ twoDigits m) [] := by
    refine ⟨nofun, ?_, nofun⟩
    intro c hc
    rcases List.mem_append.mp hc with hc | hc
    · exact (Digits.two_end hh).digit c hc
    · exact (Digits.two_end hm).digit c hc
  have h₁ := strtolEnd_signed hdigits (by rw [numeral_two_two hh hm]; omega) negative
  rw [numeral_two_two hh hm, List.append_nil] at h₁
  have hi : int32 (if negative then -((h * 100 + m : ℕ) : ℤ) else (h * 100 + m : ℕ)) =
      if negative then -(h * 100 + m : ℤ) else h * 100 + m := by
    push_cast
    apply int32_eq <;> split_ifs <;> omega
  have hn : (-(h * 100 + m : ℤ)).tdiv 100 = -h ∧ (-(h * 100 + m : ℤ)).tmod 100 = -m := by
    rw [Int.neg_tdiv, Int.neg_tmod, Int.tdiv_eq_ediv_of_nonneg (by omega), Int.tmod_eq_emod_of_nonneg (by omega)]
    omega
  have hp : (h * 100 + m : ℤ).tdiv 100 = h ∧ (h * 100 + m : ℤ).tmod 100 = m := by
    rw [Int.tdiv_eq_ediv_of_nonneg (by omega), Int.tmod_eq_emod_of_nonneg (by omega)]
    omega
  simp only [zoneFields, Zone.text, h₁, hi, List.head?_nil, reduceCtorEq, ↓reduceIte, Bool.not_false]
  refine ⟨_, _, rfl, ?_⟩
  cases negative
  · simp only [Zone.applied, Bool.false_eq_true, ↓reduceIte, hp, and_true]
    omega
  · simp only [Zone.applied, ↓reduceIte, hn]
    omega

theorem zoneFields_hours (strict negative : Bool) {h : ℕ} (hh : h < 100) :
    ∃ a b, zoneFields strict (Zone.hours negative h).text = (a, b, []) ∧ -100 < a ∧ a < 100 ∧
      -100 < b ∧ b < 100 ∧ a * 3600 + b * 60 = (Zone.hours negative h).applied strict := by
  have h₁ := strtolEnd_signed (.two_end hh) (by rw [numeral_twoDigits hh]; omega) negative
  rw [numeral_twoDigits hh, List.append_nil] at h₁
  have hi : int32 (if negative then -(h : ℤ) else h) = if negative then -(h : ℤ) else h := by
    apply int32_eq <;> split_ifs <;> omega
  have hp : (h : ℤ).tdiv 100 = 0 ∧ (h : ℤ).tmod 100 = h :=
    ⟨Int.tdiv_eq_zero_of_lt (by omega) (by omega), Int.tmod_eq_of_lt (by omega) (by omega)⟩
  simp only [zoneFields, Zone.text, h₁, hi, List.head?_nil, reduceCtorEq, ↓reduceIte]
  cases strict <;> cases negative <;>
    simp only [Zone.applied, Bool.false_eq_true, Bool.not_true, Bool.not_false, ↓reduceIte, Int.neg_tdiv,
      Int.neg_tmod, hp] <;>
    exact ⟨_, _, rfl, by omega, by omega, by omega, by omega, by omega⟩

theorem zonedTime_signed {strict : Bool} (mktime : Tm → ℤ) (T : Tm) {c : UInt8} (hc : c = 43 ∨ c = 45)
    {t : List UInt8} {a b : ℤ} (h : zoneFields strict (c :: t) = (a, b, [])) :
    zonedTime strict mktime T (c :: t) = some (timegm (T.shift a b)) := by
  have hs : (c :: t).head? = some 43 ∨ (c :: t).head? = some 45 := by simpa using hc
  simp only [zonedTime, reduceCtorEq, ↓reduceIte, hs, h, ne_eq, not_true_eq_false]

theorem zonedTime_text {T : Tm} (hmin : 0 ≤ T.min ∧ T.min < 60) (hhour : 0 ≤ T.hour ∧ T.hour < 24)
    (hmday : 0 ≤ T.mday ∧ T.mday < 100) {strict : Bool} (mktime : Tm → ℤ) {z : Zone}
    (hz : z.Written strict) : zonedTime strict mktime T z.text = some (timegm T - z.applied strict) := by
  have hsign : ∀ negative, signByte negative = 43 ∨ signByte negative = 45 := by
    rintro (_ | _) <;> simp [signByte]
  cases z with
  | utc => simp [zonedTime, Zone.text, Zone.applied]
  | offset negative h m =>
    obtain ⟨a, b, hab, ha, ha', hb, hb', heq⟩ := zoneFields_offset strict negative hz.1 hz.2
    rw [Zone.text, zonedTime_signed mktime T (hsign negative) hab, ← heq,
      timegm_shift hmin hhour hmday ⟨ha, ha'⟩ ⟨hb, hb'⟩, sub_sub]
  | basic negative h m =>
    obtain ⟨hstrict, hh, hm⟩ := hz
    subst hstrict
    obtain ⟨a, b, hab, ha, ha', hb, hb', heq⟩ := zoneFields_basic negative hh hm
    rw [Zone.text, zonedTime_signed mktime T (hsign negative) hab, ← heq,
      timegm_shift hmin hhour hmday ⟨ha, ha'⟩ ⟨hb, hb'⟩, sub_sub]
  | hours negative h =>
    obtain ⟨a, b, hab, ha, ha', hb, hb', heq⟩ := zoneFields_hours strict negative hz
    rw [Zone.text, zonedTime_signed mktime T (hsign negative) hab, ← heq,
      timegm_shift hmin hhour hmday ⟨ha, ha'⟩ ⟨hb, hb'⟩, sub_sub]

/-- The fraction that a time may carry behind its seconds. -/
def Fraction (s : List UInt8) : Prop := s = [] ∨ ∃ ds, s = 46 :: ds ∧ ∀ c ∈ ds, isDigit c = true

theorem Zone.text_head (z : Zone) : ∃ c t, z.text = c :: t ∧ isDigit c = false ∧ c ≠ 46 ∧ c ≠ 32 := by
  cases z with
  | utc => exact ⟨_, _, rfl, by decide, by decide, by decide⟩
  | offset negative h m => cases negative <;> exact ⟨_, _, rfl, by decide, by decide, by decide⟩
  | basic negative h m => cases negative <;> exact ⟨_, _, rfl, by decide, by decide, by decide⟩
  | hours negative h => cases negative <;> exact ⟨_, _, rfl, by decide, by decide, by decide⟩

theorem skip_text {f : List UInt8} (hf : Fraction f) (strict : Bool) (z : Zone) :
    skipBlank strict (skipFraction (f ++ z.text)) = z.text := by
  obtain ⟨c, t, hz, hd, hdot, hblank⟩ := z.text_head
  have hskip : skipFraction (f ++ z.text) = z.text := by
    rcases hf with rfl | ⟨ds, rfl, hds⟩
    · simp [skipFraction, hz, hdot]
    · simp only [skipFraction, List.cons_append, List.head?_cons, ↓reduceIte, List.tail_cons,
        List.dropWhile_append_of_pos hds, hz]
      simp [hd]
  rw [hskip]
  simp [skipBlank, hz, hblank]

theorem ends_text {f : List UInt8} (hf : Fraction f) (z : Zone) :
    ∀ c ∈ (f ++ z.text).head?, isDigit c = false := by
  obtain ⟨d, t, hz, hd, -, -⟩ := z.text_head
  intro c hc
  rcases hf with rfl | ⟨ds, rfl, -⟩
  · rw [List.nil_append, hz] at hc
    cases hc
    exact hd
  · cases hc
    decide

theorem timegm_gmtime (n : ℕ) : timegm (gmtime n) = n := by
  have h := Calendar.dayNumber_dateOf (n / 86400)
  simp only [timegm, gmtime, sub_add_cancel, add_sub_cancel]
  rw [h]
  omega

theorem gmtime_civil (n : ℕ) (h : (gmtime n).year + 1900 < 2 ^ 31) : (gmtime n).civil.Written := by
  have hd : (0 : ℤ) ≤ n / 86400 := by omega
  have hy := Calendar.dateOf_year hd
  obtain ⟨hm, hday⟩ := Calendar.dateOf_valid (n / 86400)
  have hlen : Calendar.monthLength (Calendar.dateOf (n / 86400)).year
      (Calendar.dateOf (n / 86400)).month ≤ 31 := by
    simp only [Calendar.monthLength]
    split_ifs <;> omega
  simp only [gmtime] at h
  constructor <;> simp only [gmtime, Tm.civil] <;> omega

theorem Tm.civil_counted {T : Tm} (hy : 70 ≤ T.year ∧ T.year + 1900 < 2 ^ 31) (hm : 0 ≤ T.mon ∧ T.mon < 100) :
    T.civil.counted = T := by
  have h₁ : int32 (1900 + T.year - 1900) = T.year := by rw [add_sub_cancel_left]; exact int32_eq (by omega) (by omega)
  have h₂ : int32 (T.mon + 1 - 1) = T.mon := by rw [add_sub_cancel_right]; exact int32_eq (by omega) (by omega)
  have h₃ : 1900 + T.year ≠ 1 := by omega
  simp only [Tm.counted, Tm.civil, h₁, h₂, h₃, ↓reduceIte]

theorem soapS2dateTime_zone {n : ℤ} {z : Zone} (hn : 0 ≤ n + z.seconds)
    (hy : (gmtime (n + z.seconds).toNat).year + 1900 < 2 ^ 31) {strict : Bool} (hz : z.Written strict)
    {f : List UInt8} (hf : Fraction f) (mktime : Tm → ℤ) (error : ℤ) {s : CStr}
    (hs : s.bytes = strftime (gmtime (n + z.seconds).toNat) ++ f ++ z.text) :
    soapS2dateTime strict mktime error (some s) = .ok (error, n + z.seconds - z.applied strict) := by
  have hw := gmtime_civil _ hy
  have hc : (gmtime (n + z.seconds).toNat).civil.counted = gmtime (n + z.seconds).toNat := by
    apply Tm.civil_counted
    · have := hw.year
      simp only [Tm.civil] at this
      omega
    · have := hw.mon
      simp only [Tm.civil] at this
      omega
  have hs' : s.bytes = (gmtime (n + z.seconds).toNat).civil.text ++ (f ++ z.text) := by
    rw [hs, List.append_assoc, strftime]
  apply soapS2dateTime_text hw strict mktime error (ends_text hf z) hs'
  have hmin : 0 ≤ (gmtime (n + z.seconds).toNat).min ∧ (gmtime (n + z.seconds).toNat).min < 60 := hw.min
  have hhour : 0 ≤ (gmtime (n + z.seconds).toNat).hour ∧ (gmtime (n + z.seconds).toNat).hour < 24 := hw.hour
  have hmday : 1 ≤ (gmtime (n + z.seconds).toNat).mday ∧ (gmtime (n + z.seconds).toNat).mday < 100 := hw.mday
  rw [skip_text hf, hc, zonedTime_text hmin hhour ⟨by omega, hmday.2⟩ mktime hz, timegm_gmtime,
    Int.toNat_of_nonneg hn]

/-- The time read is the time written, unless the zone is one behind UTC by less than an hour, or one
of hours alone outside the strict mode. -/
theorem soapS2dateTime_iff {n : ℤ} {z : Zone} (hn : 0 ≤ n + z.seconds)
    (hy : (gmtime (n + z.seconds).toNat).year + 1900 < 2 ^ 31) {strict : Bool} (hz : z.Written strict)
    {f : List UInt8} (hf : Fraction f) (mktime : Tm → ℤ) (error : ℤ) {s : CStr}
    (hs : s.bytes = strftime (gmtime (n + z.seconds).toNat) ++ f ++ z.text) :
    soapS2dateTime strict mktime error (some s) = .ok (error, n) ↔ ¬ z.Lost strict := by
  rw [soapS2dateTime_zone hn hy hz hf mktime error hs, ← Zone.applied_eq_iff, Except.ok.injEq, Prod.mk.injEq]
  omega

theorem soapS2dateTime_iff_five_hours :
    (soapS2dateTime true timegm soapOk (some (.lit "2000-01-01T05:00:00.25+05")) = .ok (soapOk, 946684800) ↔
        ¬ (Zone.hours false 5).Lost true) ∧
      (soapS2dateTime false timegm soapOk (some (.lit "2000-01-01T05:00:00.25+05")) = .ok (soapOk, 946684800) ↔
        ¬ (Zone.hours false 5).Lost false) := by
  have hn : (0 : ℤ) ≤ 946684800 + (Zone.hours false 5).seconds := by decide
  have hy : (gmtime (946684800 + (Zone.hours false 5).seconds).toNat).year + 1900 < 2 ^ 31 := by decide +kernel
  have hz : ∀ strict, (Zone.hours false 5).Written strict := fun _ => show 5 < 100 by decide
  have hf : Fraction [46, 50, 53] := .inr ⟨[50, 53], rfl, by decide +kernel⟩
  constructor <;> exact soapS2dateTime_iff hn hy (hz _) hf timegm soapOk (by decide +kernel)

theorem isDigit_ne_zero {s : List UInt8} (h : ∀ c ∈ s, isDigit c = true) : 0 ∉ s := by
  intro h0
  have := isDigit_bounds (h 0 h0)
  simp at this

theorem strftime_nul_free {T : Tm} (h : T.civil.Written) : 0 ∉ strftime T ++ [90] := by
  have hdec : ∀ n, 0 ∉ decimal n := fun n => isDigit_ne_zero (Digits.decimal_end n).digit
  have htwo : ∀ {n : ℤ}, 0 ≤ n ∧ n < 100 → 0 ∉ twoDigits n.toNat := by
    intro n hn
    exact isDigit_ne_zero (Digits.two_end (show n.toNat < 100 by omega)).digit
  obtain ⟨hy, hmon, hmday, hhour, hmin, hsec⟩ := h
  simp only [strftime, Tm.text_append, List.mem_append, List.mem_cons, hdec, htwo ⟨by omega, hmon.2⟩,
    htwo ⟨by omega, hmday.2⟩, htwo (n := T.civil.hour) ⟨hhour.1, by omega⟩,
    htwo (n := T.civil.min) ⟨hmin.1, by omega⟩, htwo hsec, List.not_mem_nil, or_false, false_or]
  decide

theorem soapDateTime2s_bytes {n : ℕ} (h : (gmtime n).year + 1900 < 2 ^ 31) :
    (soapDateTime2s n).bytes = strftime (gmtime n) ++ [90] := by
  have hy : (gmtime n).year < 2 ^ 31 := by omega
  rw [soapDateTime2s, if_pos hy]
  exact cstring_of_nul_free (strftime_nul_free (gmtime_civil n h))

theorem soapS2dateTime_soapDateTime2s {n : ℕ} (h : (gmtime n).year + 1900 < 2 ^ 31) (strict : Bool)
    (mktime : Tm → ℤ) (error : ℤ) :
    soapS2dateTime strict mktime error (some (soapDateTime2s n)) = .ok (error, n) := by
  have hn : (n + Zone.utc.seconds).toNat = n := by rw [Zone.seconds, add_zero, Int.toNat_natCast]
  have hs : (soapDateTime2s n).bytes = strftime (gmtime (n + Zone.utc.seconds).toNat) ++ [] ++ Zone.utc.text := by
    rw [hn, List.append_nil, soapDateTime2s_bytes h, Zone.text]
  have h0 : 0 ≤ n + Zone.utc.seconds := by rw [Zone.seconds]; omega
  have hz : Zone.utc.Written strict := trivial
  have hf : Fraction [] := .inl rfl
  rw [soapS2dateTime_zone h0 (by rwa [hn]) hz hf mktime error hs, Zone.seconds, Zone.applied, add_zero, sub_zero]

theorem gmtime_timegm {T : Tm} (hd : Calendar.Date.Valid ⟨1900 + T.year, T.mon + 1, T.mday⟩)
    (hh : 0 ≤ T.hour ∧ T.hour < 24) (hm : 0 ≤ T.min ∧ T.min < 60) (hs : 0 ≤ T.sec ∧ T.sec < 60)
    {n : ℕ} (hn : (n : ℤ) = timegm T) : gmtime n = T := by
  have hdate := Calendar.dateOf_dayNumber hd
  obtain ⟨z, hz⟩ : ∃ z, z = Calendar.dayNumber (1900 + T.year) (T.mon + 1) T.mday := ⟨_, rfl⟩
  have ht : (n : ℤ) = z * 86400 + T.hour * 3600 + T.min * 60 + T.sec := by rw [hn, timegm, hz]
  have hday : (n : ℤ) / 86400 = z := by omega
  have hsec : (n : ℤ) % 60 = T.sec := by omega
  have hmin : (n : ℤ) / 60 % 60 = T.min := by omega
  have hhour : (n : ℤ) / 3600 % 24 = T.hour := by omega
  simp only [gmtime, hday, hsec, hmin, hhour, hz, hdate, add_sub_cancel_right, add_sub_cancel_left]

theorem timegm_nonneg {T : Tm} (hT : T.Written) :
    0 ≤ timegm { T with year := T.year - 1900, mon := T.mon - 1 } := by
  obtain ⟨hyear, hmon, hmday, hhour, hmin, hsec⟩ := hT
  have h := Calendar.dayNumber_nonneg hyear.1 hmon.1 hmday.1
  simp only [timegm, add_sub_cancel, sub_add_cancel]
  omega

/-- A UTC time in the canonical form is read as the one instant that is written so. -/
theorem soapDateTime2s_soapS2dateTime {T : Tm} (hT : T.Written) (hd : Calendar.Date.Valid ⟨T.year, T.mon, T.mday⟩)
    (hsec : T.sec < 60) (strict : Bool) (mktime : Tm → ℤ) (error : ℤ) {s : CStr} (hs : s.bytes = T.text ++ [90]) :
    ∃ n : ℕ, soapS2dateTime strict mktime error (some s) = .ok (error, n) ∧ soapDateTime2s n = s := by
  obtain ⟨hyear, hmon, hmday, hhour, hmin, hsec'⟩ := id hT
  have hy : int32 (T.year - 1900) = T.year - 1900 := int32_eq (by omega) (by omega)
  have hm : int32 (T.mon - 1) = T.mon - 1 := int32_eq (by omega) (by omega)
  have hc : T.counted = { T with year := T.year - 1900, mon := T.mon - 1 } := by
    simp only [Tm.counted, hy, hm, show T.year ≠ 1 by omega, ↓reduceIte]
  have h0 := timegm_nonneg hT
  rw [← hc] at h0
  obtain ⟨n, hn⟩ : ∃ n : ℕ, (n : ℤ) = timegm T.counted := ⟨_, Int.toNat_of_nonneg h0⟩
  have hg : gmtime n = T.counted := by
    apply gmtime_timegm (T := T.counted) _ _ _ _ hn <;> simp only [hc, add_sub_cancel, sub_add_cancel]
    · exact hd
    · exact hhour
    · exact hmin
    · exact ⟨hsec'.1, hsec⟩
  refine ⟨n, ?_, ?_⟩
  · apply soapS2dateTime_text hT strict mktime error (ends_text (.inl rfl) .utc) hs
    have hz : zonedTime strict mktime T.counted Zone.utc.text = some (timegm T.counted - Zone.utc.applied strict) := by
      apply zonedTime_text _ _ _ mktime (show Zone.utc.Written strict from trivial) <;> simp only [hc]
      · exact hmin
      · exact hhour
      · omega
    rw [skip_text (.inl rfl), hz, hn, Zone.applied, sub_zero]
  · have hfit : (gmtime n).year + 1900 < 2 ^ 31 := by
      rw [hg, hc]
      simp only [sub_add_cancel]
      exact hyear.2
    apply CStr.ext
    rw [soapDateTime2s_bytes hfit, hg, hs, hc, strftime]
    simp only [Tm.civil, add_sub_cancel, sub_add_cancel]

theorem soapDateTime2s_soapS2dateTime_at_leap_day : ∃ n : ℕ,
    soapS2dateTime true timegm soapOk (some (.lit "2000-02-29T23:59:59Z")) = .ok (soapOk, n) ∧
      soapDateTime2s n = .lit "2000-02-29T23:59:59Z" := by
  have hT : Tm.Written { year := 2000, mon := 2, mday := 29, hour := 23, min := 59, sec := 59 } := by
    constructor <;> decide
  have hd : Calendar.Date.Valid ⟨2000, 2, 29⟩ := by
    constructor <;> decide
  exact soapDateTime2s_soapS2dateTime hT hd (by decide) true timegm soapOk (by decide +kernel)

end OnvifSdk.Gsoap
