import OnvifSdk.Gsoap.Stub

namespace OnvifSdk.Gsoap

open OnvifSdk.Lib

def soapTagLen : ℕ := 1024

def percent : UInt8 := 37

def quote : UInt8 := 34

def question : UInt8 := 63

def isBlank (c : UInt8) : Bool := c = 32 || c = 9

-- `char` is signed, so a byte from 128 on is below 'A'.
def hexDigit (c : UInt8) : UInt8 := if 65 ≤ c ∧ c < 128 then (c &&& 7) + 9 else c - 48

def decodeByte (c : UInt8) : List UInt8 → UInt8 × List UInt8
  | a :: b :: s => if c = percent then (hexDigit a * 16 + hexDigit b, s) else (c, a :: b :: s)
  | s => (c, s)

def decodeText (sep : List UInt8) : ℕ → List UInt8 → List UInt8 × List UInt8
  | 0, s => ([], s)
  | _ + 1, [] => ([], [])
  | i + 1, c :: s =>
    if c ∈ sep then ([], c :: s)
    else
      let (b, s) := decodeByte c s
      let (text, s) := decodeText sep i s
      (b :: text, s)

def decodeQuoted (i : ℕ) (s : List UInt8) : List UInt8 × List UInt8 :=
  let text := (s.take i).takeWhile (· ≠ quote)
  (text, s.drop text.length)

def skips (sep : List UInt8) (c : UInt8) : Bool := isBlank c || c ∈ sep

def soapDecode (len : ℕ) (val sep : List UInt8) : CStr × List UInt8 :=
  let s := val.dropWhile (skips sep)
  let (text, s) :=
    if s.head? = some quote then decodeQuoted (len - 1) s.tail else decodeText sep (len - 1) s
  (cstring text, s.dropWhile (· ∉ sep))

theorem decodeByte_of_ne {c : UInt8} (h : c ≠ percent) (s : List UInt8) :
    decodeByte c s = (c, s) := by
  rcases s with _ | ⟨a, _ | ⟨b, s⟩⟩ <;> simp [decodeByte, h]

theorem decodeByte_lost (c : UInt8) (s : List UInt8) :
    ∃ lost, s = lost ++ (decodeByte c s).2 ∧ (lost.length ≤ 1 → 2 ≤ (decodeByte c s).2.length →
      decodeByte c s = (c, s) ∧ c ≠ percent) := by
  by_cases hc : c = percent
  · rcases s with _ | ⟨a, _ | ⟨b, s⟩⟩
    · exact ⟨[], rfl, fun _ h => absurd h (by simp [decodeByte])⟩
    · exact ⟨[], rfl, fun _ h => absurd h (by simp [decodeByte])⟩
    · exact ⟨[a, b], by simp [decodeByte, hc], fun h => absurd h (by simp)⟩
  · rw [decodeByte_of_ne hc]
    exact ⟨[], rfl, fun _ _ => ⟨rfl, hc⟩⟩

structure Plain (sep s : List UInt8) : Prop where
  text : ∀ c ∈ s, c ∉ sep ∧ c ≠ percent
  start : ∀ c ∈ s.head?, isBlank c = false ∧ c ≠ quote

theorem decodeText_plain {sep u s : List UInt8} (hu : ∀ c ∈ u, c ∉ sep ∧ c ≠ percent)
    (hs : ∃ c ∈ sep, s.head? = some c) {i : ℕ} (hi : u.length ≤ i) :
    decodeText sep i (u ++ s) = (u, s) := by
  induction u generalizing i with
  | nil =>
    obtain ⟨c, hc, hh⟩ := hs
    obtain ⟨s, rfl⟩ : ∃ s', s = c :: s' := List.head?_eq_some_iff.mp hh
    cases i <;> simp [decodeText, hc]
  | cons c u ih =>
    obtain ⟨i, rfl⟩ : ∃ k, i = k + 1 := ⟨i - 1, by simp at hi; omega⟩
    obtain ⟨hc, hp⟩ := hu c List.mem_cons_self
    have hu' : ∀ c ∈ u, c ∉ sep ∧ c ≠ percent := fun d hd => hu d (List.mem_cons_of_mem _ hd)
    simp only [List.cons_append, decodeText, if_neg hc, decodeByte_of_ne hp,
      ih hu' (Nat.succ_le_succ_iff.mp hi)]

theorem decodeText_spec (sep : List UInt8) (i : ℕ) (s : List UInt8) :
    ∃ raw, s = raw ++ (decodeText sep i s).2 ∧ (decodeText sep i s).1.length ≤ raw.length ∧
      (raw.length ≤ (decodeText sep i s).1.length + 1 → 2 ≤ (decodeText sep i s).2.length →
        (decodeText sep i s).1 = raw ∧ ∀ c ∈ raw, c ∉ sep ∧ c ≠ percent) := by
  induction i generalizing s with
  | zero => exact ⟨[], rfl, le_rfl, fun _ _ => ⟨rfl, nofun⟩⟩
  | succ i ih =>
    rcases s with _ | ⟨c, s⟩
    · exact ⟨[], rfl, le_rfl, fun _ _ => ⟨rfl, nofun⟩⟩
    · by_cases hc : c ∈ sep
      · simp only [decodeText, if_pos hc]
        exact ⟨[], rfl, le_rfl, fun _ _ => ⟨rfl, nofun⟩⟩
      · obtain ⟨lost, hl, hexact⟩ := decodeByte_lost c s
        obtain ⟨raw, hr, hlen, hraw⟩ := ih (decodeByte c s).2
        simp only [decodeText, if_neg hc]
        refine ⟨c :: lost ++ raw, ?_, ?_, ?_⟩
        · rw [List.cons_append, List.cons_append, List.append_assoc, ← hr, ← hl]
        · simp only [List.length_cons, List.length_append]; omega
        · intro h h₂
          simp only [List.length_cons, List.length_append] at h
          have hle : 2 ≤ (decodeByte c s).2.length := by
            have := congrArg List.length hr
            rw [List.length_append] at this; omega
          obtain ⟨hb, hp⟩ := hexact (by omega) hle
          have hn : lost = [] := by
            rw [hb] at hl; exact List.append_left_eq_self.mp hl.symm
          subst hn
          obtain ⟨htext, hplain⟩ := hraw (by simp at h; omega) h₂
          rw [htext, hb]
          refine ⟨rfl, ?_⟩
          intro d hd
          rcases List.mem_cons.mp hd with rfl | hd
          · exact ⟨hc, hp⟩
          · exact hplain d hd

theorem decodeQuoted_spec (i : ℕ) (s : List UInt8) :
    s = (decodeQuoted i s).1 ++ (decodeQuoted i s).2 := by
  have h : (decodeQuoted i s).1 <+: s :=
    (List.takeWhile_prefix _).trans (List.take_prefix i s)
  obtain ⟨t, ht⟩ := h
  have hd : (decodeQuoted i s).2 = t := by
    calc s.drop (decodeQuoted i s).1.length
        = ((decodeQuoted i s).1 ++ t).drop (decodeQuoted i s).1.length := by rw [ht]
      _ = t := List.drop_left
  rw [hd, ht]

theorem soapDecode_plain {sep u s : List UInt8} (hu : Plain sep u) (hne : u ≠ [])
    (hs : ∃ c ∈ sep, s.head? = some c) {len : ℕ} (hl : u.length < len) :
    soapDecode len (u ++ s) sep = (cstring u, s) := by
  obtain ⟨c, u', rfl⟩ := List.exists_cons_of_ne_nil hne
  obtain ⟨hb, hq⟩ := hu.start c rfl
  have hc : c ∉ sep := (hu.text c List.mem_cons_self).1
  have hd : (c :: u' ++ s).dropWhile (skips sep) = c :: u' ++ s := by
    simp [skips, hb, hc]
  have hh : (c :: u' ++ s).head? ≠ some quote := fun h => hq (Option.some.inj h)
  have hrest : s.dropWhile (fun c => c ∉ sep) = s := by
    obtain ⟨d, hsep, hh⟩ := hs
    obtain ⟨s, rfl⟩ : ∃ s', s = d :: s' := List.head?_eq_some_iff.mp hh
    simp [hsep]
  simp only [soapDecode, hd, if_neg hh, decodeText_plain hu.text hs (Nat.le_sub_one_of_lt hl), hrest]

theorem soapDecode_quoted {len : ℕ} {val sep m : List UInt8}
    (h : val.dropWhile (skips sep) = quote :: m) :
    soapDecode len val sep = (cstring (decodeQuoted (len - 1) m).1,
      (decodeQuoted (len - 1) m).2.dropWhile (· ∉ sep)) := by
  simp [soapDecode, h]

theorem soapDecode_text {len : ℕ} {val sep m : List UInt8} (h : val.dropWhile (skips sep) = m)
    (hq : m.head? ≠ some quote) :
    soapDecode len val sep = (cstring (decodeText sep (len - 1) m).1,
      (decodeText sep (len - 1) m).2.dropWhile (· ∉ sep)) := by
  simp only [soapDecode, h, if_neg hq]

/-- Where `soap_decode` lost next to nothing on its way to a separator, it copied plain text. -/
theorem soapDecode_spec {len : ℕ} {val sep s : List UInt8} {u : CStr} (hv : 0 ∉ val)
    (h : soapDecode len val sep = (u, s)) :
    ∃ skipped raw tail, val = skipped ++ (raw ++ (tail ++ s)) ∧ u.length ≤ raw.length ∧
      (∀ c ∈ tail, c ∉ sep) ∧ (raw.length ≤ u.length + 1 → 2 ≤ s.length →
        u.bytes = raw ∧ (skipped = [] → Plain sep raw)) := by
  have hskip : val = val.takeWhile (skips sep) ++ val.dropWhile (skips sep) :=
    List.takeWhile_append_dropWhile.symm
  have htail : ∀ m : List UInt8, m = m.takeWhile (· ∉ sep) ++ m.dropWhile (· ∉ sep) :=
    fun m => List.takeWhile_append_dropWhile.symm
  have hstop : ∀ m : List UInt8, ∀ c ∈ m.takeWhile (· ∉ sep), c ∉ sep := by
    intro m c hc
    simpa using List.mem_takeWhile_imp hc
  have hbytes : ∀ raw : List UInt8, raw <:+: val → (cstring raw).bytes = raw :=
    fun raw hr => cstring_of_nul_free (fun h0 => hv (hr.subset h0))
  by_cases hq : (val.dropWhile (skips sep)).head? = some quote
  · obtain ⟨m, hm⟩ := List.head?_eq_some_iff.mp hq
    obtain ⟨rfl, rfl⟩ := Prod.mk.inj ((soapDecode_quoted hm).symm.trans h)
    have hval : val = (val.takeWhile (skips sep) ++ [quote]) ++ ((decodeQuoted (len - 1) m).1 ++
        ((decodeQuoted (len - 1) m).2.takeWhile (· ∉ sep) ++
          (decodeQuoted (len - 1) m).2.dropWhile (· ∉ sep))) := by
      rw [← htail, ← decodeQuoted_spec, List.append_assoc, List.singleton_append, ← hm, ← hskip]
    refine ⟨_, _, _, hval, cstring_length_le _, hstop _, ?_⟩
    intro _ _
    have hinfix : (decodeQuoted (len - 1) m).1 <:+: val :=
      ⟨_, _, (List.append_assoc _ _ _).trans hval.symm⟩
    exact ⟨hbytes _ hinfix, fun h => absurd h (by simp)⟩
  · obtain ⟨raw, hraw, hlen, hexact⟩ := decodeText_spec sep (len - 1) (val.dropWhile (skips sep))
    obtain ⟨rfl, rfl⟩ := Prod.mk.inj ((soapDecode_text rfl hq).symm.trans h)
    have hval : val = val.takeWhile (skips sep) ++ (raw ++
        ((decodeText sep (len - 1) (val.dropWhile (skips sep))).2.takeWhile (· ∉ sep) ++
          (decodeText sep (len - 1) (val.dropWhile (skips sep))).2.dropWhile (· ∉ sep))) := by
      rw [← htail, ← hraw, ← hskip]
    refine ⟨_, raw, _, hval, (cstring_length_le _).trans hlen, hstop _, ?_⟩
    intro hr h₂
    have hcut := cstring_length_le (decodeText sep (len - 1) (val.dropWhile (skips sep))).1
    obtain ⟨htext, hplain⟩ := hexact (by omega) (h₂.trans (List.dropWhile_suffix _).length_le)
    have hinfix : raw <:+: val := ⟨_, _, (List.append_assoc _ _ _).trans hval.symm⟩
    rw [htext]
    refine ⟨hbytes _ hinfix, fun _ => ⟨hplain, ?_⟩⟩
    intro c hc
    obtain ⟨raw', rfl⟩ := List.head?_eq_some_iff.mp hc
    rw [hraw] at hq
    have hnot : skips sep c = false := by
      have hhead := List.head?_dropWhile_not (skips sep) val
      rw [hraw] at hhead
      exact hhead
    exact ⟨(Bool.or_eq_false_iff.mp hnot).1, fun hcq => hq (congrArg some hcq)⟩

theorem soapDecode_suffix {len : ℕ} {val sep s : List UInt8} {u : CStr} (hv : 0 ∉ val)
    (h : soapDecode len val sep = (u, s)) : s <:+ val := by
  obtain ⟨skipped, raw, tail, hval, -⟩ := soapDecode_spec hv h
  exact ⟨skipped ++ (raw ++ tail), by simpa using hval.symm⟩

theorem soapDecode_length {len : ℕ} {val sep s : List UInt8} {u : CStr} (hv : 0 ∉ val)
    (h : soapDecode len val sep = (u, s)) : u.length + s.length ≤ val.length := by
  obtain ⟨skipped, raw, tail, hval, hlen, -⟩ := soapDecode_spec hv h
  rw [hval]
  simp only [List.length_append]; omega

theorem soapDecode_exact {len : ℕ} {val sep s : List UInt8} {u : CStr} (hv : 0 ∉ val)
    (h : soapDecode len val sep = (u, s)) (hs : 2 ≤ s.length)
    (hl : val.length ≤ u.length + s.length) : val = u.bytes ++ s ∧ Plain sep u.bytes := by
  obtain ⟨skipped, raw, tail, hval, hlen, _, hexact⟩ := soapDecode_spec hv h
  have hsum := congrArg List.length hval
  simp only [List.length_append] at hsum
  obtain ⟨hu, hplain⟩ := hexact (by omega) hs
  have hskip : skipped = [] := List.length_eq_zero_iff.mp (by omega)
  have htail : tail = [] := List.length_eq_zero_iff.mp (by omega)
  rw [hu]
  exact ⟨by simpa [hskip, htail] using hval, hplain hskip⟩

theorem soapDecode_stops {len : ℕ} {sep s : List UInt8} {c : UInt8} {u : CStr}
    (hv : 0 ∉ u.bytes ++ c :: s) (hs : 2 ≤ s.length) (hc : c ∈ sep)
    (hhead : ∀ d ∈ (u.bytes ++ c :: s).head?, d ∉ sep) :
    soapDecode len (u.bytes ++ c :: s) sep ≠ (u, s) := by
  intro h
  obtain ⟨skipped, raw, tail, hval, hlen, htail, hexact⟩ := soapDecode_spec hv h
  have hu' : u.length = u.bytes.length := rfl
  have hsum := congrArg List.length hval
  simp only [List.length_append, List.length_cons] at hsum
  obtain ⟨hu, -⟩ := hexact (by omega) hs
  have hsame : u.bytes ++ [c] = skipped ++ (u.bytes ++ tail) := by
    have hval' : (u.bytes ++ [c]) ++ s = (skipped ++ (u.bytes ++ tail)) ++ s := by
      simpa [hu] using hval
    exact List.append_cancel_right hval'
  rcases skipped with _ | ⟨d, skipped⟩
  · obtain rfl : [c] = tail := List.append_cancel_left hsame
    exact htail c List.mem_cons_self hc
  · have hone : skipped = [] ∧ tail = [] := by
      constructor <;> apply List.length_eq_zero_iff.mp <;> simp only [List.length_cons] at hsum <;> omega
    obtain ⟨rfl, rfl⟩ := hone
    -- counting the separator: the byte that was lost is the separator itself
    have hcount := congrArg (List.count c) hsame
    simp only [List.count_append, List.count_cons, List.count_nil, List.cons_append, List.nil_append,
      List.append_nil, beq_self_eq_true, ↓reduceIte] at hcount
    have hd : d = c := by
      by_contra hne
      simp [hne] at hcount
    apply hhead d _ (hd ▸ hc)
    rw [hval]
    rfl

structure Address where
  endpoint : CStr
  host : CStr
  path : CStr
  port : ℤ
  userid : Ptr CStr := none
  passwd : Ptr CStr := none
  authrealm : Ptr CStr := none
  overrideHost : Ptr CStr := none
  overridePort : ℤ := 0

def afterScheme (endpoint : List UInt8) : List UInt8 :=
  let s := endpoint.dropWhile (· ≠ colon)
  if [colon, slash, slash] <+: s then s.drop 3 else endpoint

-- `s` is where the user ends and `t` is the first '@'.
def decodePasswd (s t : List UInt8) : CStr × List UInt8 :=
  if s.head? = some colon then
    let s := s.tail
    if s.head? ≠ some atSign ∧ t.length < s.length then
      soapDecode (s.length - t.length + 1) s [atSign]
    else (CStr.lit "", s)
  else (CStr.lit "", s)

theorem decodePasswd_text {s t : List UInt8} (h : s.head? ≠ some atSign ∧ t.length < s.length) :
    decodePasswd (colon :: s) t = soapDecode (s.length - t.length + 1) s [atSign] :=
  if_pos h

theorem decodePasswd_none {s t : List UInt8} (h : ¬ (s.head? ≠ some atSign ∧ t.length < s.length)) :
    decodePasswd (colon :: s) t = (CStr.lit "", s) :=
  if_neg h

theorem decodePasswd_of_ne {s t : List UInt8} (h : s.head? ≠ some colon) :
    decodePasswd s t = (CStr.lit "", s) :=
  if_neg h

structure Userinfo where
  credentials : Option (CStr × CStr)
  rest : List UInt8

/-- The block of `soap_set_endpoint` that takes the userinfo off, where there is one. `alloc` is
whether `soap_malloc` finds the memory. -/
def soapUserinfo (alloc : Bool) (s : List UInt8) : Outcome (Option Userinfo) :=
  let t := s.dropWhile (· ≠ atSign)
  if t = [] ∨ s.head? = some colon ∨ s.head? = some atSign then .ok none
  else
    let (credentials, s) :=
      if alloc then
        let (user, s) := soapDecode (s.length - t.length + 1) s [colon, atSign]
        let (pass, s) := decodePasswd s t
        (some (user, pass), s)
      else (none, s)
    match s with
    | [] => .error .memory
    | _ :: s => .ok (some ⟨credentials, s⟩)

def toLower (c : UInt8) : UInt8 := if 65 ≤ c ∧ c ≤ 90 then c + 32 else c

-- `!soap_tag_cmp(endpoint, "https:*")`
def isHttps (endpoint : List UInt8) : Bool := (endpoint.take 6).map toLower = utf8 "https:"

def digits (s : List UInt8) : ℕ :=
  (s.takeWhile (fun c => 48 ≤ c && c ≤ 57)).foldl (fun n c => 10 * n + (c.toNat - 48)) 0

-- `strtol(s, NULL, 10)` on a 64-bit machine.
def strtol (s : List UInt8) : ℤ :=
  let s := s.dropWhile (fun c => c = 32 || 9 ≤ c && c ≤ 13)
  if s.head? = some 45 then max (-2 ^ 63) (-(digits s.tail : ℤ))
  else min (2 ^ 63 - 1) (digits (if s.head? = some 43 then s.tail else s) : ℤ)

/-- The part of `soap_set_endpoint` behind the userinfo: host, port and path. -/
def soapSetHost (soap : Address) (s : List UInt8) : Address :=
  let n := min s.length (soapTagLen - 1)
  let host := (s.take n).takeWhile (fun c => c ≠ slash ∧ c ≠ colon ∧ c ≠ question)
  let i := host.length
  let (port, i) :=
    if s[i]? = some colon then
      ((strtol (s.drop (i + 1))).bmod (2 ^ 32),
        i + 1 + (((s.take n).drop (i + 1)).takeWhile (· ≠ slash)).length)
    else (soap.port, i)
  let path := if i < n then cstring ((s.drop i).take (soapTagLen - 1)) else soap.path
  let (host, port) := match soap.overrideHost with
    | some h =>
      if h.bytes = [] then (cstring host, port)
      else (cstring (h.bytes.take (soapTagLen - 1)),
        if soap.overridePort ≠ 0 then soap.overridePort else port)
    | none => (cstring host, port)
  { soap with
    host := host
    port := port
    path := path
    authrealm := if soap.userid.isSome ∧ soap.authrealm = none then some host else soap.authrealm }

def Address.clear (soap : Address) : Address :=
  { soap with endpoint := CStr.lit "", host := CStr.lit "", path := CStr.lit "/", port := 80 }

def Address.enter (soap : Address) (endpoint : CStr) : Address :=
  { soap.clear with
    port := if isHttps endpoint.bytes then 443 else 80
    endpoint := cstring (endpoint.bytes.take (soapTagLen - 1)) }

def Address.leave (soap : Address) (endpoint : CStr) (n : ℕ) (u : Userinfo) : Address :=
  { soap with
    userid := (u.credentials.map (some ·.1)).getD soap.userid
    passwd := (u.credentials.map (some ·.2)).getD soap.passwd
    endpoint := cstring (endpoint.bytes.take n ++ u.rest.take (soapTagLen - n - 1)) }

def soapSetEndpoint (alloc : Bool) (soap : Address) (endpoint : Ptr CStr) : Outcome Address :=
  match endpoint with
  | none => .ok soap.clear
  | some endpoint =>
    if endpoint.bytes = [] then .ok soap.clear
    else
      let soap := soap.enter endpoint
      let s := afterScheme endpoint.bytes
      let n := endpoint.length - s.length
      match soapUserinfo alloc s with
      | .error e => .error e
      | .ok none => .ok (soapSetHost soap s)
      | .ok (some u) =>
        if soapTagLen ≤ n then .error .memory
        else .ok (soapSetHost (soap.leave endpoint n u) u.rest)

end OnvifSdk.Gsoap
