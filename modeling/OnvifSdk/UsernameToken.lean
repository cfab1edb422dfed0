import OnvifSdk.Requests

namespace OnvifSdk.UsernameToken

open Lib Program Gsoap

def Failing : Event gsoap → Prop
  | ⟨.soapMalloc _, found⟩ => found = false
  | ⟨.calcDigest _ _ _, x⟩ => x.2 ≠ soapOk
  | _ => False

/-- An allocation that goes wrong and whose result is followed without a check. -/
def Losing : Event gsoap → Prop
  | ⟨.soapMalloc (.sizeof r), found⟩ => found = false ∧ r ≠ .wsseEncodedString
  | _ => False

def Clean (t : Trace) : Prop := ∀ e ∈ t, ¬ Failing e

def Whole (t : Trace) : Prop := ∀ e ∈ t, ¬ Losing e

@[simp] theorem clean_nil : Clean [] := by simp [Clean]

@[simp] theorem clean_cons (e : Event gsoap) (t : Trace) : Clean (e :: t) ↔ ¬ Failing e ∧ Clean t := by
  simp [Clean]

@[simp] theorem clean_append (t t' : Trace) : Clean (t ++ t') ↔ Clean t ∧ Clean t' := by
  simp [Clean, or_imp, forall_and]

@[simp] theorem whole_nil : Whole [] := by simp [Whole]

@[simp] theorem whole_cons (e : Event gsoap) (t : Trace) : Whole (e :: t) ↔ ¬ Losing e ∧ Whole t := by
  simp [Whole]

@[simp] theorem whole_append (t t' : Trace) : Whole (t ++ t') ↔ Whole t ∧ Whole t' := by
  simp [Whole, or_imp, forall_and]

/-- The error of the context records exactly whether a step has failed. -/
def Sticky (c : Soap) (t : Trace) (c' : Soap) : Prop :=
  c'.error = soapOk ↔ c.error = soapOk ∧ Clean t

theorem Sticky.refl (c : Soap) : Sticky c [] c := by simp [Sticky]

theorem Sticky.trans {c c' c'' : Soap} {t t' : Trace} (h : Sticky c t c') (h' : Sticky c' t' c'') :
    Sticky c (t ++ t') c'' := by
  simp only [Sticky, clean_append] at *
  rw [h', h, and_assoc]

theorem Sticky.cons {c c' : Soap} {e : Event gsoap} {t : Trace} (he : ¬ Failing e) (h : Sticky c t c') :
    Sticky c (e :: t) c' := by
  simpa [Sticky, he] using h

theorem Sticky.congr {c c' c'' : Soap} {t : Trace} (h : Sticky c t c') (he : c''.error = c'.error) :
    Sticky c t c'' := by
  rwa [Sticky, he]

theorem soapMalloc_runs {c : Soap} {n : Size} {t : Trace} {r : Outcome (Bool × Soap)} :
    Runs (soapMalloc c n) t r ↔ ∃ found, t = [⟨.soapMalloc n, found⟩] ∧ r = .ok (found, eom c found) := by
  have hp : soapMalloc c n = .op (.soapMalloc n) fun found => .ret (found, eom c found) := rfl
  rw [hp, runs_op]
  constructor
  · rintro ⟨found, t, rfl, h⟩
    obtain ⟨rfl, rfl⟩ := runs_ret.mp h
    exact ⟨found, rfl, rfl⟩
  · rintro ⟨found, rfl, rfl⟩
    exact ⟨found, [], rfl, .ret _⟩

theorem soapMalloc_bind {α : Type} {c : Soap} {n : Size} {f : Bool × Soap → Prog α} {t : Trace}
    {r : Outcome α} (h : Runs (soapMalloc c n >>= f) t r) :
    ∃ found t', t = [⟨.soapMalloc n, found⟩] ++ t' ∧ Runs (f (found, eom c found)) t' r := by
  rcases runs_bind.mp h with ⟨e, h₁, _⟩ | ⟨_, t₁, t₂, rfl, h₁, h₂⟩
  · obtain ⟨_, _, hr⟩ := soapMalloc_runs.mp h₁
    cases hr
  · obtain ⟨found, rfl, hr⟩ := soapMalloc_runs.mp h₁
    cases hr
    exact ⟨found, t₂, rfl, h₂⟩

theorem eom_sticky (c : Soap) (n : Size) (found : Bool) :
    Sticky c [⟨.soapMalloc n, found⟩] (eom c found) := by
  cases found <;> simp [Sticky, eom, Failing, soapEom, soapOk]

@[simp] theorem eom_header (c : Soap) (found : Bool) : (eom c found).header = c.header := by
  cases found <;> rfl

theorem raised_sticky (c : Soap) (created : CStr) (nonce : WsseNonce) (password : CStr)
    (x : SmdSha1 × ℤ) : Sticky c [⟨.calcDigest created nonce password, x⟩] (c.raised x.2) := by
  by_cases hx : x.2 = soapOk <;> simp [Sticky, Soap.raised, Failing, hx]

@[simp] theorem raised_header (c : Soap) (error : ℤ) : (c.raised error).header = c.header := by
  unfold Soap.raised
  split_ifs <;> rfl

theorem bytes_whole (n : ℕ) (found : Bool) : Whole [⟨.soapMalloc (.bytes n), found⟩] := by
  simp [Losing]

@[simp] theorem soapStrdup_none (c : Soap) : soapStrdup c none = .ret (none, c) := rfl

theorem soapStrdup_runs {c : Soap} {s : CStr} {t : Trace} {r : Outcome (Ptr CStr × Soap)}
    (h : Runs (soapStrdup c (some s)) t r) :
    ∃ q c', r = .ok (q, c') ∧ c'.header = c.header ∧ Sticky c t c' ∧ Whole t ∧ (Clean t → q = some s) := by
  obtain ⟨found, t₂, rfl, h₂⟩ := soapMalloc_bind h
  obtain ⟨rfl, rfl⟩ := runs_ret.mp h₂
  refine ⟨_, _, rfl, eom_header c found, eom_sticky c _ found, bytes_whole _ found, ?_⟩
  cases found <;> simp [Failing]

theorem soapS2base64New_runs {c : Soap} {s : List UInt8} {t : Trace} {r : Outcome (Ptr CStr × Soap)}
    (h : Runs (soapS2base64New c s) t r) :
    ∃ q c', r = .ok (q, c') ∧ c'.header = c.header ∧ Sticky c t c' ∧ Whole t ∧
      (Clean t → q = some (base64 s)) := by
  obtain ⟨found, t₂, rfl, h₂⟩ := soapMalloc_bind h
  obtain ⟨rfl, rfl⟩ := runs_ret.mp h₂
  refine ⟨_, _, rfl, eom_header c found, eom_sticky c _ found, bytes_whole _ found, ?_⟩
  cases found <;> simp [Failing]

def secured (c : Soap) (security : WsseSecurity) : SoapEnvHeader :=
  { c.header.getD {} with wsseSecurity := some security }

theorem getD_header_security (c : Soap) : (c.header.getD {}).wsseSecurity = c.security := by
  unfold Soap.security
  cases c.header <;> rfl

theorem soapHeader_runs {c : Soap} {t : Trace} {r : Outcome Soap} (h : Runs (soapHeader c) t r) :
    ∃ c', r = .ok c' ∧ Sticky c t c' ∧
      ((Whole t ∧ c'.header = some (c.header.getD {})) ∨ (¬ Whole t ∧ c'.header = none)) := by
  unfold soapHeader at h
  cases hh : c.header with
  | some hd =>
    simp only [hh] at h
    obtain ⟨rfl, rfl⟩ := runs_ret.mp h
    exact ⟨c, rfl, .refl c, .inl ⟨whole_nil, hh⟩⟩
  | none =>
    simp only [hh] at h
    obtain ⟨found, t₂, rfl, h₂⟩ := soapMalloc_bind h
    obtain ⟨rfl, rfl⟩ := runs_ret.mp h₂
    refine ⟨_, rfl, (eom_sticky c _ found).congr rfl, ?_⟩
    cases found with
    | true => exact .inl ⟨by simp [Losing], rfl⟩
    | false => exact .inr ⟨by simp [Losing], rfl⟩

theorem soapWsseAddSecurity_runs {c : Soap} {t : Trace} {r : Outcome (Bool × Soap)}
    (h : Runs (soapWsseAddSecurity c) t r) :
    (r = .error .memory ∧ ¬ Whole t) ∨ ∃ c', Sticky c t c' ∧
      ((Whole t ∧ r = .ok (true, c') ∧ c'.header = some (secured c (c.security.getD {}))) ∨
        (¬ Whole t ∧ r = .ok (false, c') ∧ c'.security = none)) := by
  rcases runs_bind.mp h with ⟨e, h₁, _⟩ | ⟨c₁, t₁, t₂, rfl, h₁, h₂⟩
  · obtain ⟨_, hr, _⟩ := soapHeader_runs h₁
    cases hr
  obtain ⟨_, hr, hs, ⟨hw, hh⟩ | ⟨hw, hh⟩⟩ := soapHeader_runs h₁
  · cases hr
    simp only [hh, deref_some, ret_bind] at h₂
    rw [getD_header_security] at h₂
    cases hsec : c.security with
    | some security =>
      simp only [hsec] at h₂
      obtain ⟨rfl, rfl⟩ := runs_ret.mp h₂
      refine .inr ⟨c₁, hs.trans (.refl c₁), .inl ⟨by simpa using hw, rfl, ?_⟩⟩
      rw [hh, secured, Option.getD_some, ← hsec, ← getD_header_security]
    | none =>
      simp only [hsec] at h₂
      obtain ⟨found, t₄, rfl, h₄⟩ := soapMalloc_bind h₂
      obtain ⟨rfl, rfl⟩ := runs_ret.mp h₄
      refine .inr ⟨(eom c₁ found).setSecurity (if found then some {} else none),
        hs.trans (((eom_sticky c₁ _ found).congr rfl).trans (.refl _)), ?_⟩
      cases found with
      | true => exact .inl ⟨by simp [hw, Losing], rfl, by simp [Soap.setSecurity, hh, secured]⟩
      | false =>
        exact .inr ⟨by simp [Losing], rfl, by simp [Soap.setSecurity, Soap.security, hh]⟩
  · cases hr
    simp only [hh, deref_none, stop_bind] at h₂
    obtain ⟨rfl, rfl⟩ := runs_stop.mp h₂
    exact .inl ⟨rfl, by simpa using hw⟩

theorem security_of_secured {c c' : Soap} {s : WsseSecurity} (h : c'.header = some (secured c s)) :
    c'.security = some s := by
  simp [Soap.security, h, secured]

theorem secured_of_secured {c c' : Soap} {s : WsseSecurity} (h : c'.header = some (secured c s))
    (s' : WsseSecurity) : secured c' s' = secured c s' := by
  simp [secured, h]

theorem setToken_header {c c' : Soap} {s : WsseSecurity} (h : c'.header = some (secured c s))
    (token : Ptr WsseUsernameToken) :
    (c'.setToken token).header = some (secured c { s with usernameToken := token }) := by
  simp [Soap.setToken, Soap.setSecurity, Soap.security, h, secured]

theorem soapWsseNewUsernameToken_runs {c : Soap} {s : WsseSecurity} {t : Trace}
    {r : Outcome (Bool × Soap)} (h : Runs (soapWsseNewUsernameToken c s) t r) :
    ∃ found c', r = .ok (found, c') ∧ c'.header = c.header ∧ Sticky c t c' ∧ (found = true ↔ Whole t) ∧
      (found = false → s.usernameToken = none) := by
  unfold soapWsseNewUsernameToken at h
  cases hs : s.usernameToken with
  | some token =>
    simp only [hs] at h
    obtain ⟨rfl, rfl⟩ := runs_ret.mp h
    exact ⟨true, c, rfl, rfl, .refl c, by simp, nofun⟩
  | none =>
    simp only [hs] at h
    obtain ⟨found, rfl, rfl⟩ := soapMalloc_runs.mp h
    exact ⟨found, _, rfl, eom_header c found, eom_sticky c _ found, by simp [Losing], fun _ => rfl⟩

theorem soapWsseAddUsernameTokenText_runs {c : Soap} {u pw : CStr} {t : Trace} {r : Outcome (ℤ × Soap)}
    (h : Runs (soapWsseAddUsernameTokenText c none (some u) (some pw)) t r) :
    (r = .error .memory ∧ ¬ Whole t) ∨ ∃ n c', r = .ok (n, c') ∧ Sticky c t c' ∧
      ((Whole t ∧ ∃ token password,
          c'.header = some (secured c { c.security.getD {} with usernameToken := some token }) ∧
          token.password = some password ∧ (Clean t → token =
            { username := some u, password := some { item := some pw, type := some wssePasswordTextURI } })) ∨
        (¬ Whole t ∧ (c'.security.bind (·.usernameToken)).bind (·.password) = none)) := by
  rcases runs_bind.mp h with ⟨e, h₁, rfl⟩ | ⟨⟨found, c₁⟩, t₁, t₂, rfl, h₁, h₂⟩
  · rcases soapWsseAddSecurity_runs h₁ with ⟨hr, hw⟩ | ⟨_, _, ⟨_, hr, _⟩ | ⟨_, hr, _⟩⟩
    · exact .inl ⟨by rw [Except.error.inj hr], hw⟩
    · cases hr
    · cases hr
  rcases soapWsseAddSecurity_runs h₁ with ⟨hr, _⟩ | ⟨_, hs₁, ⟨hw₁, hr, hh₁⟩ | ⟨hw₁, hr, hh₁⟩⟩
  · cases hr
  · cases hr
    simp only [security_of_secured hh₁, deref_some, ret_bind] at h₂
    rcases runs_bind.mp h₂ with ⟨e, h₃, _⟩ | ⟨⟨found, c₂⟩, t₂, t₃, rfl, h₃, h₄⟩
    · obtain ⟨_, _, hr, _⟩ := soapWsseNewUsernameToken_runs h₃
      cases hr
    obtain ⟨_, _, hr, hh₂, hs₂, hw₂, hnone⟩ := soapWsseNewUsernameToken_runs h₃
    cases hr
    rw [hh₁] at hh₂
    cases found with
    | false =>
      obtain ⟨rfl, rfl⟩ := runs_ret.mp h₄
      refine .inr ⟨_, _, rfl, hs₁.trans (hs₂.trans (.refl c₂)), .inr ⟨?_, ?_⟩⟩
      · simp [← hw₂]
      · rw [security_of_secured hh₂, Option.bind_some, hnone rfl, Option.bind_none]
    | true =>
      have hw₂ := hw₂.mp rfl
      simp only [Bool.not_true, Bool.false_eq_true, ↓reduceIte, soapStrdup_none, ret_bind] at h₄
      rcases runs_bind.mp h₄ with ⟨e, h₅, _⟩ | ⟨⟨username, c₃⟩, t₃, t₄, rfl, h₅, h₆⟩
      · obtain ⟨_, _, hr, _⟩ := soapStrdup_runs h₅
        cases hr
      obtain ⟨_, _, hr, hh₃, hs₃, hw₃, hu⟩ := soapStrdup_runs h₅
      cases hr
      rw [hh₂] at hh₃
      obtain ⟨found, t₅, rfl, h₈⟩ := soapMalloc_bind h₆
      have hs₄ := eom_sticky c₃ (.sizeof .wssePassword) found
      have hh₄ : (eom c₃ found).header = some (secured c (c.security.getD {})) := by rw [eom_header, hh₃]
      cases found with
      | false =>
        obtain ⟨rfl, rfl⟩ := runs_ret.mp h₈
        refine .inr ⟨_, _, rfl, hs₁.trans (hs₂.trans (hs₃.trans (hs₄.trans ((Sticky.refl _).congr rfl)))),
          .inr ⟨by simp [Losing], ?_⟩⟩
        rw [security_of_secured (setToken_header hh₄ _)]
        rfl
      | true =>
        simp only [Bool.not_true, Bool.false_eq_true, ↓reduceIte] at h₈
        rcases runs_bind.mp h₈ with ⟨e, h₉, _⟩ | ⟨⟨item, c₅⟩, t₅, t₆, rfl, h₉, h₁₀⟩
        · obtain ⟨_, _, hr, _⟩ := soapStrdup_runs h₉
          cases hr
        obtain ⟨_, _, hr, hh₅, hs₅, hw₅, hp⟩ := soapStrdup_runs h₉
        cases hr
        obtain ⟨rfl, rfl⟩ := runs_ret.mp h₁₀
        rw [hh₄] at hh₅
        refine .inr ⟨_, _, rfl, hs₁.trans (hs₂.trans (hs₃.trans (hs₄.trans
          (hs₅.trans ((Sticky.refl _).congr rfl))))), .inl ⟨?_, _, _, setToken_header hh₅ _, rfl, ?_⟩⟩
        · simp [hw₁, hw₂, hw₃, hw₅, Losing]
        · intro hc
          simp only [clean_append] at hc
          rw [hu hc.2.2.1, hp hc.2.2.2.2.1]
  · cases hr
    simp only [hh₁, deref_none, stop_bind] at h₂
    obtain ⟨rfl, rfl⟩ := runs_stop.mp h₂
    exact .inl ⟨rfl, by simpa using hw₁⟩

def digestToken (u created : CStr) (nonce : WsseNonce) (ha : SmdSha1) : WsseUsernameToken where
  username := some u
  password := some { item := some (base64 ha.toList), type := some wssePasswordDigestURI }
  nonce := some { item := some (base64 nonce.toList), encodingType := some wsseBase64BinaryURI }
  wsuCreated := some created

/-- `token` carries a digest that the run `t` has computed from the password. -/
def Signed (u p : CStr) (t : Trace) (token : WsseUsernameToken) : Prop :=
  ∃ created nonce ha, ⟨.calcDigest created nonce p, (ha, soapOk)⟩ ∈ t ∧ token = digestToken u created nonce ha

theorem Signed.mono {u p : CStr} {t t' : Trace} {token : WsseUsernameToken} (h : Signed u p t token)
    (ht : t ⊆ t') : Signed u p t' token := by
  obtain ⟨created, nonce, ha, hm, rfl⟩ := h
  exact ⟨created, nonce, ha, ht hm, rfl⟩

theorem soapWsseAddUsernameTokenDigest_runs {c : Soap} {u p : CStr} {t : Trace} {r : Outcome (ℤ × Soap)}
    (h : Runs (soapWsseAddUsernameTokenDigest c none (some u) (some p)) t r) :
    (r = .error .memory ∧ ¬ Whole t) ∨ ∃ n c', r = .ok (n, c') ∧ Sticky c t c' ∧ Whole t ∧
      (n ≠ soapOk → c'.error ≠ soapOk) ∧ ∃ token,
        c'.header = some (secured c { c.security.getD {} with usernameToken := some token }) ∧
        (Clean t → Signed u p t token) := by
  rcases runs_bind.mp h with ⟨e, h₁, rfl⟩ | ⟨⟨found, c₁⟩, t₁, t₂, rfl, h₁, h₂⟩
  · rcases soapWsseAddSecurity_runs h₁ with ⟨hr, hw⟩ | ⟨_, _, ⟨_, hr, _⟩ | ⟨_, hr, _⟩⟩
    · exact .inl ⟨by rw [Except.error.inj hr], hw⟩
    · cases hr
    · cases hr
  simp only [perform, op_bind, ret_bind, runs_op] at h₂
  obtain ⟨created, t₂, rfl, nonce, t₂, rfl, h₄⟩ := h₂
  rcases runs_bind.mp h₄ with ⟨e, h₅, _⟩ | ⟨⟨nonceBase64, c₂⟩, t₂, t₃, rfl, h₅, h₆⟩
  · obtain ⟨_, _, hr, _⟩ := soapS2base64New_runs h₅
    cases hr
  obtain ⟨_, _, hr, hh₂, hs₂, hw₂, hn⟩ := soapS2base64New_runs h₅
  cases hr
  simp only [deref_some, ret_bind, runs_op] at h₆
  obtain ⟨ha, t₃, rfl, h₇⟩ := h₆
  have hs₃ := raised_sticky c₂ created nonce p ha
  rcases soapWsseAddSecurity_runs h₁ with ⟨hr, _⟩ | ⟨_, hs₁, ⟨hw₁, hr, hh₁⟩ | ⟨hw₁, hr, hh₁⟩⟩
  · cases hr
  · cases hr
    have hh₃ : (c₂.raised ha.2).header = some (secured c (c.security.getD {})) := by
      rw [raised_header, hh₂, hh₁]
    rcases runs_bind.mp h₇ with ⟨e, h₈, rfl⟩ | ⟨⟨n, c₄⟩, t₃, t₄, rfl, h₈, h₉⟩
    · rcases soapWsseAddUsernameTokenText_runs h₈ with ⟨hr, hw⟩ | ⟨_, _, hr, _⟩
      · exact .inl ⟨by rw [Except.error.inj hr], by simp [hw]⟩
      · cases hr
    rcases soapWsseAddUsernameTokenText_runs h₈ with ⟨hr, _⟩ | ⟨_, _, hr, hs₄, hcases⟩
    · cases hr
    cases hr
    rcases hcases with ⟨hw₄, token, password, hh₄, hpass, htoken⟩ | ⟨hw₄, hnone⟩
    · rw [secured_of_secured hh₃, security_of_secured hh₃, Option.getD_some] at hh₄
      simp only [↓reduceIte, security_of_secured hh₄, deref_some, ret_bind, hpass] at h₉
      obtain ⟨found, t₅, rfl, h₁₁⟩ := soapMalloc_bind h₉
      have hs₅ := eom_sticky c₄ (.sizeof .wsseEncodedString) found
      have hh₅ := (eom_header c₄ found).trans hh₄
      have hsticky {t' : Trace} {c' : Soap} (hs : Sticky (eom c₄ found) t' c') :=
        hs₁.trans (.cons (e := ⟨.soapDateTime2s, created⟩) id (.cons (e := ⟨.soapWsseRandNonce, nonce⟩) id
          (hs₂.trans (hs₃.trans (hs₄.trans (hs₅.trans hs))))))
      right
      cases found with
      | false =>
        obtain ⟨rfl, rfl⟩ := runs_ret.mp h₁₁
        refine ⟨_, _, rfl, hsticky ((Sticky.refl _).congr rfl), ?_, ?_, _, setToken_header hh₅ _, ?_⟩
        · simp [hw₁, hw₂, hw₄, Losing]
        · intro _ he
          cases he
        · simp [Failing]
      | true =>
        simp only [Bool.not_true, Bool.false_eq_true, ↓reduceIte] at h₁₁
        rcases runs_bind.mp h₁₁ with ⟨e, h₁₂, _⟩ | ⟨⟨created', c₆⟩, t₅, t₆, rfl, h₁₂, h₁₃⟩
        · obtain ⟨_, _, hr, _⟩ := soapStrdup_runs h₁₂
          cases hr
        obtain ⟨_, _, hr, hh₆, hs₆, hw₆, hcreated⟩ := soapStrdup_runs h₁₂
        cases hr
        rw [hh₅] at hh₆
        obtain ⟨rfl, rfl⟩ := runs_ret.mp h₁₃
        refine ⟨_, _, rfl, hsticky (hs₆.trans ((Sticky.refl _).congr rfl)), ?_,
          fun hne => absurd rfl hne, _, setToken_header hh₆ _, ?_⟩
        · simp [hw₁, hw₂, hw₄, hw₆, Losing]
        · intro hc
          simp only [clean_append, clean_cons] at hc
          obtain ⟨_, _, _, hc₂, hha, hc₄, _, hc₆, _⟩ := hc
          refine ⟨created, nonce, ha.1, ?_, ?_⟩
          · have hok : ha = (ha.1, soapOk) := Prod.ext rfl (not_not.mp hha)
            rw [← hok]
            simp
          · obtain rfl : password = _ := Option.some.inj (hpass.symm.trans (congrArg _ (htoken hc₄)))
            rw [htoken hc₄, hn hc₂, hcreated hc₆]
            rfl
    · left
      refine ⟨?_, by simp [hw₄]⟩
      simp only [↓reduceIte] at h₉
      cases hsec : c₄.security with
      | none =>
        simp only [hsec, deref_none, stop_bind] at h₉
        exact (runs_stop.mp h₉).2
      | some security =>
        simp only [hsec, deref_some, ret_bind] at h₉
        cases htok : security.usernameToken with
        | none =>
          simp only [htok, deref_none, stop_bind] at h₉
          exact (runs_stop.mp h₉).2
        | some token =>
          have hpass : token.password = none := by simpa [hsec, htok] using hnone
          simp only [htok, deref_some, ret_bind, hpass, deref_none, stop_bind] at h₉
          exact (runs_stop.mp h₉).2
  · cases hr
    left
    refine ⟨?_, by simp [hw₁]⟩
    rcases runs_bind.mp h₇ with ⟨e, h₈, rfl⟩ | ⟨⟨n, c₄⟩, t₃, t₄, rfl, h₈, h₉⟩
    · rcases soapWsseAddUsernameTokenText_runs h₈ with ⟨hr, _⟩ | ⟨_, _, hr, _⟩
      · rw [Except.error.inj hr]
      · cases hr
    · simp only [Bool.false_eq_true, ↓reduceIte, deref_none, stop_bind] at h₉
      exact (runs_stop.mp h₉).2

/-- What becomes of one use of `ONVIF_SetAuthInfo`: it crashes after losing a record, and fails after
any other failing step; else the header carries a complete token. -/
theorem onvifSetAuthInfo_runs {c : Soap} {u p : CStr} {t : Trace} {r : Outcome (ℤ × Ptr Soap)}
    (h : Runs (onvifSetAuthInfo .debug (some c) (some u) (some p)) t r) :
    (r = .error .memory ∧ ¬ Whole t) ∨ ∃ n c', r = .ok (n, some c') ∧ Whole t ∧
      (n = soapOk ↔ c.error = soapOk ∧ Clean t) ∧ ∃ token,
        c'.header = some (secured c { c.security.getD {} with usernameToken := some token }) ∧
        (Clean t → Signed u p t token) := by
  simp only [onvifSetAuthInfo, soapAssert_some, ret_bind, deref_some] at h
  rcases runs_bind.mp h with ⟨e, h₁, rfl⟩ | ⟨⟨result, c'⟩, t₁, t₂, rfl, h₁, h₂⟩
  · rcases soapWsseAddUsernameTokenDigest_runs h₁ with ⟨hr, hw⟩ | ⟨_, _, hr, _⟩
    · exact .inl ⟨by rw [Except.error.inj hr], hw⟩
    · cases hr
  · rcases soapWsseAddUsernameTokenDigest_runs h₁ with ⟨hr, _⟩ | ⟨_, _, hr, hs, hw, hn, token, hh, hsign⟩
    · cases hr
    cases hr
    obtain ⟨rfl, rfl⟩ := runs_ret.mp h₂
    rw [List.append_nil]
    refine .inr ⟨_, _, rfl, hw, ?_, token, hh, hsign⟩
    apply Iff.trans _ hs
    by_cases hz : result = soapOk
    · by_cases he : c'.error = soapOk <;> simp [hz, he]
    · simpa [hz] using hn hz

end OnvifSdk.UsernameToken
