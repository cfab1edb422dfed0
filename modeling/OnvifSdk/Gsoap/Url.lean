import OnvifSdk.Gsoap.Endpoint
import OnvifSdk.Lib.Decimal

namespace OnvifSdk.Gsoap

open OnvifSdk.Lib

def unreserved (c : UInt8) : Bool :=
  c = 45 || c = 46 || (48 ≤ c && c ≤ 57) || (65 ≤ c && c ≤ 90) || c = 95 || (97 ≤ c && c ≤ 122) || c = 126

/-- A `char` as an `int`. -/
def signedByte (c : UInt8) : ℤ := (c.toNat : ℤ).bmod 256

def urlHigh (c : UInt8) : UInt8 :=
  UInt8.ofInt (signedByte c / 16 + if 159 < signedByte c then 55 else 48)

def urlLow (c : UInt8) : UInt8 :=
  UInt8.ofNat (c.toNat % 16 + if 9 < c.toNat % 16 then 55 else 48)

-- The text that is written, and what is left of `n`.
def encodeUrlLoop : ℤ → List UInt8 → List UInt8 × ℤ
  | n, [] => ([], n)
  | n, c :: s =>
    if n ≤ 1 then ([], n - 1)
    else
      let n := n - 1
      if unreserved c then
        let (t, n) := encodeUrlLoop n s
        (c :: t, n)
      else if 2 < n then
        let (t, n) := encodeUrlLoop (n - 2) s
        (percent :: urlHigh c :: urlLow c :: t, n)
      else ([], n)

/-- What is written in front of the terminator, where anything is, and the value returned. -/
def soapEncodeUrl (s : Ptr CStr) (len : ℤ) : Option (List UInt8) × ℤ :=
  match s with
  | none => (none, 0)
  | some s =>
    if 0 < len then
      let (t, n) := encodeUrlLoop len s.bytes
      (some t, len - n)
    else (none, 0)

/-- `memory` is what `soap_malloc` returns and what reads there before anything is written. The size is
an `int`; where it overflows, which C leaves undefined, it wraps around here. -/
def soapEncodeUrlString (memory : Ptr CStr) (s : Ptr CStr) : CStr :=
  match s, memory with
  | some s, some t => ((soapEncodeUrl (some s) (int32 (3 * int32 s.length + 1))).1.map cstring).getD t
  | _, _ => .lit ""

def urlByte (c : UInt8) : List UInt8 := if unreserved c then [c] else [percent, urlHigh c, urlLow c]

def urlEncoded (s : List UInt8) : List UInt8 := s.flatMap urlByte

theorem urlEncoded_cons (c : UInt8) (s : List UInt8) : urlEncoded (c :: s) = urlByte c ++ urlEncoded s :=
  List.flatMap_cons

theorem urlByte_length (c : UInt8) : (urlByte c).length = if unreserved c then 1 else 3 := by
  unfold urlByte
  split_ifs <;> rfl

/-- What the loop writes is the longest part of the text that fits. -/
structure Longest (s : List UInt8) (len : ℤ) (p t : List UInt8) : Prop where
  part : p <+: s
  text : t = urlEncoded p
  fits : t.length < len
  longest : ∀ c, p ++ [c] <+: s → len ≤ (urlEncoded (p ++ [c])).length

theorem Longest.cons {s p t : List UInt8} {len : ℤ} {c : UInt8} (h : Longest s (len - (urlByte c).length) p t) :
    Longest (c :: s) len (c :: p) (urlByte c ++ t) := by
  refine ⟨List.cons_prefix_cons.mpr ⟨rfl, h.part⟩, ?_, ?_, ?_⟩
  · rw [urlEncoded_cons, h.text]
  · have := h.fits
    rw [List.length_append]
    omega
  · intro d hd
    have := h.longest d (List.cons_prefix_cons.mp hd).2
    rw [List.cons_append, urlEncoded_cons, List.length_append]
    omega

theorem Longest.stop {c : UInt8} {s : List UInt8} {len : ℤ} (h : 0 < len) (hc : len ≤ (urlByte c).length) :
    Longest (c :: s) len [] [] := by
  refine ⟨List.nil_prefix, rfl, h, ?_⟩
  intro d hd
  obtain ⟨rfl, _⟩ := List.cons_prefix_cons.mp hd
  simpa [urlEncoded] using hc

theorem encodeUrlLoop_spec (s : List UInt8) {n : ℤ} (hn : 0 < n) : ∃ p, Longest s n p (encodeUrlLoop n s).1 ∧
    n - (encodeUrlLoop n s).2 = (encodeUrlLoop n s).1.length + if p = s then 0 else 1 := by
  induction s generalizing n with
  | nil =>
    refine ⟨[], ⟨List.nil_prefix, rfl, hn, ?_⟩, by simp [encodeUrlLoop]⟩
    intro c hc
    exact absurd hc (by simp)
  | cons c s ih =>
    have hl := urlByte_length c
    by_cases h1 : n ≤ 1
    · refine ⟨[], ?_, ?_⟩
      · simp only [encodeUrlLoop, h1, ↓reduceIte]
        apply Longest.stop hn
        split_ifs at hl <;> omega
      · simp [encodeUrlLoop, h1]
    · by_cases hc : unreserved c
      · obtain ⟨p, hp, hret⟩ := ih (show 0 < n - 1 by omega)
        have hb : urlByte c = [c] := by simp [urlByte, hc]
        have hlong : Longest (c :: s) n _ _ := Longest.cons (c := c) (by rwa [hb])
        simp only [encodeUrlLoop, h1, ↓reduceIte, hc]
        rw [hb] at hlong
        refine ⟨c :: p, hlong, ?_⟩
        simp only [List.cons.injEq, true_and, List.length_cons]
        push_cast
        omega
      · by_cases h3 : 2 < n - 1
        · obtain ⟨p, hp, hret⟩ := ih (show 0 < n - 1 - 2 by omega)
          have hb : urlByte c = [percent, urlHigh c, urlLow c] := by simp [urlByte, hc]
          have h' : n - 1 - 2 = n - ([percent, urlHigh c, urlLow c].length : ℕ) := by simp; omega
          have hlong : Longest (c :: s) n _ _ := Longest.cons (c := c) (by rw [hb, ← h']; exact hp)
          simp only [encodeUrlLoop, h1, ↓reduceIte, hc, h3, Bool.false_eq_true]
          rw [hb] at hlong
          refine ⟨c :: p, hlong, ?_⟩
          simp only [List.cons.injEq, true_and, List.length_cons]
          push_cast
          omega
        · refine ⟨[], ?_, ?_⟩
          · simp only [encodeUrlLoop, h1, ↓reduceIte, hc, h3, Bool.false_eq_true]
            apply Longest.stop hn
            rw [if_neg hc] at hl
            omega
          · simp [encodeUrlLoop, h1, hc, h3]

theorem hexDigit_url : ∀ c : UInt8, hexDigit (urlHigh c) * 16 + hexDigit (urlLow c) = c := by decide +kernel

-- What the endpoint parser stops at or passes over does not occur in an encoded text.
def special : List UInt8 := [0, 9, 32, quote, colon, atSign]

theorem special_urlByte (c : UInt8) : ∀ d ∈ urlByte c, d ∉ special := by
  have h : ∀ c : UInt8, (urlByte c).all fun d => !special.contains d := by decide +kernel
  simpa using h c

theorem special_urlEncoded {s : List UInt8} {d : UInt8} (hd : d ∈ urlEncoded s) : d ∉ special := by
  obtain ⟨c, _, hc⟩ := List.mem_flatMap.mp hd
  exact special_urlByte c d hc

theorem urlEncoded_nul_free (s : List UInt8) : 0 ∉ urlEncoded s :=
  fun h => special_urlEncoded h (by decide)

theorem urlEncoded_eq_nil {s : List UInt8} : urlEncoded s = [] ↔ s = [] := by
  cases s with
  | nil => simp [urlEncoded]
  | cons c s =>
    have h := urlByte_length c
    simp only [urlEncoded_cons, reduceCtorEq, iff_false]
    intro he
    rw [(List.append_eq_nil_iff.mp he).1] at h
    split_ifs at h

theorem length_le_urlEncoded (s : List UInt8) : s.length ≤ (urlEncoded s).length := by
  induction s with
  | nil => rfl
  | cons c s ih =>
    have h := urlByte_length c
    rw [urlEncoded_cons, List.length_append, List.length_cons]
    split_ifs at h <;> omega

theorem urlEncoded_length_le (s : List UInt8) : (urlEncoded s).length ≤ 3 * s.length := by
  induction s with
  | nil => rfl
  | cons c s ih =>
    have h := urlByte_length c
    rw [urlEncoded_cons, List.length_append, List.length_cons]
    split_ifs at h <;> omega

theorem decodeByte_urlByte {sep : List UInt8} (hsep : sep ⊆ special) (c : UInt8) (s : List UInt8) :
    ∃ d m, urlByte c ++ s = d :: m ∧ d ∉ sep ∧ decodeByte d m = (c, s) := by
  have hd : ∀ d ∈ urlByte c, d ∉ sep := fun d hd h => special_urlByte c d hd (hsep h)
  by_cases hc : unreserved c
  · have hb : urlByte c = [c] := by simp [urlByte, hc]
    have hp : c ≠ percent := by
      rintro rfl
      exact absurd hc (by decide)
    refine ⟨c, s, by rw [hb]; rfl, hd c (by simp [hb]), decodeByte_of_ne hp s⟩
  · have hb : urlByte c = [percent, urlHigh c, urlLow c] := by simp [urlByte, hc]
    refine ⟨percent, urlHigh c :: urlLow c :: s, by rw [hb]; rfl, hd percent (by simp [hb]), ?_⟩
    rw [decodeByte, if_pos rfl, hexDigit_url]

theorem decodeText_urlEncoded {sep : List UInt8} (hsep : sep ⊆ special) (u : List UInt8) {s : List UInt8}
    (hs : ∃ c ∈ sep, s.head? = some c) {i : ℕ} (hi : u.length ≤ i) :
    decodeText sep i (urlEncoded u ++ s) = (u, s) := by
  induction u generalizing i with
  | nil => exact decodeText_plain (u := []) nofun hs hi
  | cons c u ih =>
    obtain ⟨i, rfl⟩ : ∃ k, i = k + 1 := ⟨i - 1, by simp at hi; omega⟩
    obtain ⟨d, m, hdm, hd, hbyte⟩ := decodeByte_urlByte hsep c (urlEncoded u ++ s)
    rw [urlEncoded_cons, List.append_assoc, hdm]
    simp only [decodeText, if_neg hd, hbyte, ih (Nat.succ_le_succ_iff.mp hi)]

theorem soapDecode_urlEncoded {sep : List UInt8} (hsep : sep ⊆ special) {u s : List UInt8} (hne : u ≠ [])
    (hs : ∃ c ∈ sep, s.head? = some c) {len : ℕ} (hl : u.length < len) :
    soapDecode len (urlEncoded u ++ s) sep = (cstring u, s) := by
  obtain ⟨d, m, hdm⟩ := List.exists_cons_of_ne_nil (mt urlEncoded_eq_nil.mp hne)
  have hd : d ∉ special := special_urlEncoded (s := u) (by rw [hdm]; exact List.mem_cons_self)
  have hskip : skips sep d = false := by
    have hb : isBlank d = false := by
      simp only [special, List.mem_cons, not_or] at hd
      simp [isBlank, hd]
    have hd' : d ∉ sep := fun h => hd (hsep h)
    simp [skips, hb, hd']
  have hdrop : (urlEncoded u ++ s).dropWhile (skips sep) = urlEncoded u ++ s := by
    rw [hdm, List.cons_append, List.dropWhile_cons_of_neg (by simp [hskip])]
  have hquote : (urlEncoded u ++ s).head? ≠ some quote := by
    rw [hdm]
    intro h
    exact hd (Option.some.inj h ▸ by decide)
  have hrest : s.dropWhile (fun c => c ∉ sep) = s := by
    obtain ⟨c, hc, hh⟩ := hs
    obtain ⟨s, rfl⟩ := List.head?_eq_some_iff.mp hh
    simp [hc]
  rw [soapDecode_text hdrop hquote, decodeText_urlEncoded hsep u hs (Nat.le_sub_one_of_lt hl), hrest]

def isHexDigit (c : UInt8) : Bool := isDigit c || (65 ≤ c && c ≤ 70)

/-- Text as a parser of addresses takes it. -/
inductive PercentEncoded : List UInt8 → Prop
  | nil : PercentEncoded []
  | plain {c : UInt8} {s : List UInt8} (hc : unreserved c) (h : PercentEncoded s) : PercentEncoded (c :: s)
  | byte {a b : UInt8} {s : List UInt8} (ha : isHexDigit a) (hb : isHexDigit b) (h : PercentEncoded s) :
      PercentEncoded (percent :: a :: b :: s)

theorem percentEncoded_byte {a b : UInt8} {s : List UInt8} :
    PercentEncoded (percent :: a :: b :: s) ↔ isHexDigit a ∧ isHexDigit b ∧ PercentEncoded s := by
  constructor
  · rintro (_ | ⟨hc, _⟩ | ⟨ha, hb, h⟩)
    · exact absurd hc (by decide)
    · exact ⟨ha, hb, h⟩
  · rintro ⟨ha, hb, h⟩
    exact .byte ha hb h

theorem percentEncoded_plain {c : UInt8} (hc : unreserved c) {s : List UInt8} :
    PercentEncoded (c :: s) ↔ PercentEncoded s := by
  constructor
  · rintro (_ | ⟨_, h⟩ | ⟨ha, hb, h⟩)
    · exact h
    · exact absurd hc (by decide)
  · exact .plain hc

theorem isHexDigit_url : ∀ c : UInt8, isHexDigit (urlLow c) ∧ (isHexDigit (urlHigh c) ↔ c < 128) := by
  decide +kernel

theorem unreserved_lt : ∀ c : UInt8, unreserved c → c < 128 := by decide +kernel

/-- A byte from 128 on is negative as a `char`, and its first digit is none. -/
theorem percentEncoded_iff (s : List UInt8) : PercentEncoded (urlEncoded s) ↔ ∀ c ∈ s, c < 128 := by
  induction s with
  | nil => simp [urlEncoded, PercentEncoded.nil]
  | cons c s ih =>
    rw [urlEncoded_cons, List.forall_mem_cons, ← ih]
    by_cases hc : unreserved c
    · simp only [urlByte, hc, ↓reduceIte, List.singleton_append, percentEncoded_plain hc, unreserved_lt c hc, true_and]
    · simp only [urlByte, hc, Bool.false_eq_true, ↓reduceIte, List.cons_append, List.nil_append, percentEncoded_byte,
        (isHexDigit_url c).1, (isHexDigit_url c).2, true_and]

theorem Longest.whole {s p t : List UInt8} {len : ℤ} (h : Longest s len p t) (hl : (urlEncoded s).length < len) :
    p = s := by
  obtain ⟨rest, hrest⟩ := h.part
  cases rest with
  | nil => rwa [List.append_nil] at hrest
  | cons c rest =>
    have hlong := h.longest c ⟨rest, by rw [List.append_assoc]; exact hrest⟩
    have hle : (urlEncoded (p ++ [c])).length ≤ (urlEncoded s).length := by
      rw [← hrest, urlEncoded, urlEncoded, List.flatMap_append, List.flatMap_append, List.flatMap_cons,
        List.flatMap_cons]
      simp
    omega

/-- However little room there is, what is written is the encoding of the longest start of the text that
has room, decodes to it, and is in the form of an address unless a byte has its top bit set. The value
returned counts one too many where the text is cut. -/
theorem soapEncodeUrl_spec (s : CStr) {len : ℤ} (hlen : 0 < len) {sep rest : List UInt8} (hsep : sep ⊆ special)
    (hrest : ∃ c ∈ sep, rest.head? = some c) : ∃ p t, p <+: s.bytes ∧
      soapEncodeUrl (some s) len = (some t, (t.length : ℤ) + if p = s.bytes then 0 else 1) ∧
      t = urlEncoded p ∧ t.length < len ∧ (∀ c, p ++ [c] <+: s.bytes → len ≤ (urlEncoded (p ++ [c])).length) ∧
      (3 * s.length < len → p = s.bytes) ∧ decodeText sep p.length (t ++ rest) = (p, rest) ∧
      (PercentEncoded t ↔ ∀ c ∈ p, c < 128) := by
  obtain ⟨p, hp, hret⟩ := encodeUrlLoop_spec s.bytes hlen
  refine ⟨p, _, hp.part, ?_, hp.text, hp.fits, hp.longest, ?_, ?_, ?_⟩
  · simp only [soapEncodeUrl, if_pos hlen, hret]
  · intro h
    apply hp.whole
    have := urlEncoded_length_le s.bytes
    rw [CStr.length] at h
    omega
  · rw [hp.text]
    exact decodeText_urlEncoded hsep p hrest le_rfl
  · rw [hp.text]
    exact percentEncoded_iff p

theorem soapEncodeUrl_spec_when_cut : ∃ p t, p <+: (CStr.lit "p@ss").bytes ∧
    soapEncodeUrl (some (.lit "p@ss")) 6 = (some t, (t.length : ℤ) + if p = (CStr.lit "p@ss").bytes then 0 else 1) ∧
    t = urlEncoded p ∧ t.length < (6 : ℤ) ∧
    (∀ c, p ++ [c] <+: (CStr.lit "p@ss").bytes → (6 : ℤ) ≤ (urlEncoded (p ++ [c])).length) ∧
    (3 * (CStr.lit "p@ss").length < (6 : ℤ) → p = (CStr.lit "p@ss").bytes) ∧
    decodeText [atSign] p.length (t ++ [atSign]) = (p, [atSign]) ∧ (PercentEncoded t ↔ ∀ c ∈ p, c < 128) :=
  soapEncodeUrl_spec (.lit "p@ss") (by decide) (by decide) ⟨atSign, by simp, rfl⟩

theorem soapEncodeUrl_whole (s : CStr) : (soapEncodeUrl (some s) (3 * s.length + 1)).1 = some (urlEncoded s.bytes) := by
  have hlen : (0 : ℤ) < 3 * s.length + 1 := by omega
  obtain ⟨p, hp, _⟩ := encodeUrlLoop_spec s.bytes hlen
  have hfit : ((urlEncoded s.bytes).length : ℤ) < 3 * s.length + 1 := by
    have := urlEncoded_length_le s.bytes
    rw [CStr.length]
    omega
  have htext := hp.text
  rw [hp.whole hfit] at htext
  simp only [soapEncodeUrl, if_pos hlen, htext]

theorem soapEncodeUrlString_bytes (t : CStr) {s : CStr} (hs : (3 * s.length + 1 : ℤ) < 2 ^ 31) :
    (soapEncodeUrlString (some t) (some s)).bytes = urlEncoded s.bytes := by
  have hlength : int32 (s.length : ℤ) = s.length := int32_eq (by omega) (by omega)
  have hsize : int32 (3 * s.length + 1) = 3 * s.length + 1 := int32_eq (by omega) (by omega)
  have hwhole := soapEncodeUrl_whole s
  rw [← hsize] at hwhole
  simp only [soapEncodeUrlString, hlength, hwhole]
  exact cstring_of_nul_free (urlEncoded_nul_free s.bytes)

end OnvifSdk.Gsoap
