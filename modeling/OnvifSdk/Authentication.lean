import OnvifSdk.UsernameToken
import OnvifSdk.Host

namespace OnvifSdk.Authentication

open Lib Program Gsoap UsernameToken

inductive ServiceCall
  | getCapabilities (deviceXAddr : Ptr CStr) (capa : Ptr TagCapabilities)
  | getProfiles (mediaXAddr : Ptr CStr) (profiles : Ptr (Ptr (List TagProfile)))
  | getStreamUri (mediaXAddr profileToken : Ptr CStr) (uri : Ptr (List UInt8)) (sizeuri : UInt32)
  | getSnapshotUri (mediaXAddr profileToken : Ptr CStr) (uri : Ptr (List UInt8)) (sizeuri : UInt32)
  | getVideoEncoderConfigurationOptions (mediaXAddr configurationToken : Ptr CStr)
  | getVideoEncoderConfiguration (mediaXAddr configurationToken : Ptr CStr)
  | setVideoEncoderConfiguration (mediaXAddr : Ptr CStr) (venc : Ptr TagVideoEncoderConfiguration)

def ServiceCall.program (b : Build) (username password : Ptr CStr) : ServiceCall → Prog ℤ
  | getCapabilities ep capa => do
    let a ← onvifGetCapabilities b ep capa username password
    return a.1
  | getProfiles ep profiles => do
    let a ← onvifGetProfiles b ep profiles username password
    return a.1
  | getStreamUri ep token uri sizeuri => do
    let a ← onvifGetStreamUri b ep token uri sizeuri username password
    return a.1
  | getSnapshotUri ep token uri sizeuri => do
    let a ← onvifGetSnapshotUri b ep token uri sizeuri username password
    return a.1
  | getVideoEncoderConfigurationOptions ep token =>
    onvifGetVideoEncoderConfigurationOptions b ep token username password
  | getVideoEncoderConfiguration ep token => onvifGetVideoEncoderConfiguration b ep token username password
  | setVideoEncoderConfiguration ep venc => onvifSetVideoEncoderConfiguration b ep venc username password

def Sent : Event gsoap → Prop
  | ⟨.soapCall _ _ _ _, x⟩ => Exchange.Transmitted x
  | _ => False

def Ordered (t : Trace) : Prop := t.Pairwise fun e e' => Failing e → ¬ Sent e'

def headerOf (token : WsseUsernameToken) : SoapEnvHeader :=
  { wsseSecurity := some { usernameToken := some token } }

structure Authenticates (u p : CStr) (t : Trace) (r : Outcome ℤ) : Prop where
  signed : ∀ s c ep req x, ⟨.soapCall s c ep req, x⟩ ∈ t → Exchange.Transmitted x →
    ∃ token, Signed u p t token ∧ c.header = some (headerOf token)
  ordered : Ordered t
  reported : ¬ Clean t → ∃ n, r = .ok n ∧ n ≠ 0

/-- A received header that leaves nothing behind once its token is replaced. -/
def Bare (h : SoapEnvHeader) : Prop :=
  { h with wsseSecurity := none } = ({} : SoapEnvHeader) ∧
    ∀ s, h.wsseSecurity = some s → { s with usernameToken := none } = ({} : WsseSecurity)

def Calls (s : Service) : Event gsoap → Bool
  | ⟨.soapCall s' _ _ _, _⟩ => s' = s
  | _ => false

def before (s : Service) (t : Trace) : Trace := t.takeWhile fun e => !Calls s e

/-- What the environment answers the calls of `s`: that it took none of them. -/
def Untaken (s : Service) (t : Trace) : Prop := ∀ y ∈ exchanges s t, ¬ y.2.Transmitted

/-- No record is lost, no other step of building a token fails unless the network does not take its request,
none at all where a count is returned, and the header of the first reply is bare if the device has a
configuration to be changed and the network takes the second request. -/
structure Careful (call : ServiceCall) (t : Trace) : Prop where
  whole : Whole t
  token : ∀ s, Clean (before s t) ∨ Untaken s t
  count : ∀ ep profiles, call = .getProfiles ep profiles → Clean t
  bare : ∀ ep venc, call = .setVideoEncoderConfiguration ep venc →
    ∀ x ∈ exchanges .getVideoEncoderConfiguration t, x.2.Accepted → (x.2.reply {}).rep.configuration ≠ none →
      (∀ h, (x.2.reply {}).header = some (some h) → Bare h) ∨ Untaken .setVideoEncoderConfiguration t

section Traces

def Unsent (t : Trace) : Prop := ∀ e ∈ t, ¬ Sent e

@[simp] theorem unsent_nil : Unsent [] := by simp [Unsent]

@[simp] theorem unsent_cons (e : Event gsoap) (t : Trace) : Unsent (e :: t) ↔ ¬ Sent e ∧ Unsent t := by
  simp [Unsent]

@[simp] theorem unsent_append (t t' : Trace) : Unsent (t ++ t') ↔ Unsent t ∧ Unsent t' := by
  simp [Unsent, or_imp, forall_and]

def Uncalled (t : Trace) : Prop := ∀ e ∈ t, ∀ s, Calls s e = false

theorem Uncalled.unsent {t : Trace} (h : Uncalled t) : Unsent t := by
  rintro ⟨o, x⟩ he hs
  cases o with
  | soapCall s c ep req =>
    have hcalls := h _ he s
    simp [Calls] at hcalls
  | _ => exact hs

theorem uncalled_tokenSteps {t : Trace} (h : ∀ e ∈ t, e.1.TokenStep) : Uncalled t := by
  rintro ⟨o, x⟩ he s
  have ho : o.TokenStep := h _ he
  cases o with
  | soapCall s c ep req => exact ho.elim
  | _ => rfl

theorem exchanges_uncalled {t : Trace} (h : Uncalled t) (s : Service) : exchanges s t = [] := by
  apply List.flatMap_eq_nil_iff.mpr
  rintro ⟨o, x⟩ he
  cases o with
  | soapCall s' c ep req =>
    have hcalls := h _ he s'
    simp [Calls] at hcalls
  | _ => rfl

theorem before_append {t : Trace} (h : Uncalled t) (s : Service) (t' : Trace) :
    before s (t ++ t') = t ++ before s t' := by
  apply List.takeWhile_append_of_pos
  intro e he
  rw [h e he s]
  rfl

theorem before_cons (s : Service) (e : Event gsoap) (t : Trace) :
    before s (e :: t) = if Calls s e then [] else e :: before s t := by
  cases hc : Calls s e <;> simp [before, hc]

theorem untaken_of_nil {s : Service} {t : Trace} (h : exchanges s t = []) : Untaken s t := by
  rw [Untaken, h]
  exact fun _ hy => absurd hy List.not_mem_nil

theorem ordered_nil : Ordered [] := .nil

theorem ordered_of_unsent {t : Trace} (h : Unsent t) : Ordered t := by
  apply List.pairwise_of_forall_mem_list
  intro _ _ e he _
  exact h e he

theorem ordered_append {t t' : Trace} :
    Ordered (t ++ t') ↔ Ordered t ∧ Ordered t' ∧ (Clean t ∨ Unsent t') := by
  unfold Ordered
  rw [List.pairwise_append]
  refine and_congr_right fun _ => and_congr_right fun _ => ?_
  constructor
  · intro h
    by_cases hc : Clean t
    · exact .inl hc
    · simp only [Clean, not_forall, not_not] at hc
      obtain ⟨e, he, hf⟩ := hc
      exact .inr fun e' he' => h e he e' he' hf
  · rintro (hc | hu) e he e' he' hf
    · exact absurd hf (hc e he)
    · exact hu e' he'

theorem ordered_cons {e : Event gsoap} {t : Trace} :
    Ordered (e :: t) ↔ Ordered t ∧ (¬ Failing e ∨ Unsent t) := by
  rw [← List.singleton_append, ordered_append]
  have he : Ordered [e] := List.pairwise_singleton _ _
  simp [he]

def Idle : Op → Prop
  | .soapNew | .soapDelete | .mallocTagProfiles _ => True
  | _ => False

theorem idle_trace {t : Trace} (h : ∀ e ∈ t, Idle e.1) : Clean t ∧ Whole t ∧ Uncalled t := by
  refine ⟨?_, ?_, ?_⟩
  · rintro ⟨o, x⟩ he
    have ho : Idle o := h _ he
    cases o <;> first | exact ho.elim | exact id
  · rintro ⟨o, x⟩ he
    have ho : Idle o := h _ he
    cases o <;> first | exact ho.elim | exact id
  · rintro ⟨o, x⟩ he
    have ho : Idle o := h _ he
    cases o <;> first | exact ho.elim | exact fun _ => rfl

theorem not_clean_of_not_whole {t : Trace} (h : ¬ Whole t) : ¬ Clean t := by
  intro hc
  apply h
  rintro ⟨o, x⟩ he hl
  apply hc _ he
  cases o with
  | soapMalloc n =>
    cases n with
    | sizeof r => exact hl.1
    | bytes n => exact hl.elim
  | _ => exact hl.elim

end Traces

theorem onHost_clean {α : Type} (peer : (s : Service) → Soap → Ptr CStr → s.Req → Exchange s.Rep)
    (q : List (Reply WsddProbeMatches)) (p : Prog α) : Clean (onHost peer q p).1 := by
  rintro ⟨o, x⟩ he hf
  obtain ⟨q', hx⟩ := exec_answered (S := gsoap) (host peer) p q _ he
  cases o with
  | soapMalloc n =>
    have hfound : x = true := hx
    rw [hfound] at hf
    cases hf
  | calcDigest created nonce password =>
    have hha : x = (Vector.replicate 20 0, soapOk) := hx
    rw [hha] at hf
    exact hf rfl
  | _ => exact hf

theorem freshAuth_runs {u p : CStr} {t : Trace} {r : Outcome (ℤ × Ptr Soap)}
    (h : Runs (onvifSetAuthInfo .debug (some freshSoap) (some u) (some p)) t r) :
    Uncalled t ∧ ((∃ e, r = .error e ∧ ¬ Whole t) ∨ ∃ n c token, r = .ok (n, some c) ∧ Whole t ∧
      c.header = some (headerOf token) ∧ (Clean t → Signed u p t token)) := by
  refine ⟨uncalled_tokenSteps ((onvifSetAuthInfo_tokenStep _ _ _ _).runs h), ?_⟩
  rcases onvifSetAuthInfo_runs h with ⟨hr, hw⟩ | ⟨n, c, hr, hw, _, token, hh, hs⟩
  · exact .inl ⟨_, hr, hw⟩
  · exact .inr ⟨n, c, token, hr, hw, hh, hs⟩

theorem checked_idle {α : Type} {result : ℤ} {soap : Ptr Soap} {left : ℤ → α} {k : Prog α}
    (hk : KeepsTo Idle k) : KeepsTo Idle (soapCheckError result soap >>= fun failed =>
      match failed with
      | some n => soapExit soap (left n)
      | none => k) := by
  apply (soapCheckError_keepsTo result soap).bind
  intro failed
  cases failed with
  | some n => exact soapExit_keepsTo trivial _ _
  | none => exact hk

theorem checked_unsent {α ρ : Type} {e : ℤ} {c : Soap} {z : ρ} {left : ℤ → α} {k : Prog α} {t : Trace}
    {r : Outcome α} (he : e ≠ soapOk)
    (h : Runs (soapCheckError e (some (c.received ⟨e, e, none, z⟩)) >>= fun failed =>
      match failed with
      | some n => soapExit (some (c.received ⟨e, e, none, z⟩)) (left n)
      | none => k) t r) : r = .ok (left e) := by
  simp only [soapCheckError_unsent he, ret_bind] at h
  exact (soapExit_runs.mp h).2

section OneRequest

variable {α : Type} {s : Service} {ep : Ptr CStr} {req : s.Req} {u p : CStr}
  {f : ℤ × Ptr Soap × s.Rep → Prog α} {t : Trace} {r : Outcome α}

theorem oneRequest_iff (g : α → ℤ) (counts : Bool)
    (h : Runs (soapAssertAssign .debug (onvifSoapNew .debug soapSockTimeout) >>= fun soap =>
      request .debug s soap ep req (some u) (some p) >>= f) t r)
    (hf : ∀ a, KeepsTo Idle (f a))
    (hn : ∀ e (c : Soap), e ≠ soapOk → ∀ t r,
      Runs (f (e, some (c.received ⟨e, e, none, s.zero⟩), s.zero)) t r →
        r.map g = .ok (if counts then 0 else e)) :
    Authenticates u p t (r.map g) ↔
      Whole t ∧ (∀ s, Clean (before s t) ∨ Untaken s t) ∧ (counts = true → Clean t) := by
  rcases newContext_runs.mp h with ⟨rfl, rfl⟩ | ⟨t, rfl, h₁⟩
  · constructor
    · intro _
      exact ⟨by simp [Losing], fun _ => .inr (untaken_of_nil rfl), fun _ => by simp [Failing]⟩
    · intro _
      exact ⟨by simp, ordered_of_unsent (by simp [Sent]), by simp [Failing]⟩
  rcases request_runs h₁ with ⟨e, h₂, rfl⟩ | ⟨_, c, x, t₁, t₂, h₂, rfl, h₃⟩
  · obtain ⟨hu, ⟨_, _, hw⟩ | ⟨_, _, _, hr, _⟩⟩ := freshAuth_runs h₂
    · have hw' : ¬ Whole (⟨.soapNew, true⟩ :: t) := by simp [hw]
      constructor
      · intro ha
        obtain ⟨_, hr, _⟩ := ha.reported (not_clean_of_not_whole hw')
        cases hr
      · intro hc
        exact absurd hc.1 hw'
    · cases hr
  · obtain ⟨hu, ⟨_, hr, _⟩ | ⟨_, _, token, hr, hw, hh, hs⟩⟩ := freshAuth_runs h₂
    · cases hr
    cases hr
    obtain ⟨hc₂, hw₂, hu₂⟩ := idle_trace ((hf _).runs h₃)
    have hwhole : Whole (⟨.soapNew, true⟩ :: (t₁ ++ ⟨.soapCall s (soapBegin c) ep req, x⟩ :: t₂)) := by
      simp [hw, hw₂, Losing]
    have hclean : Clean (⟨.soapNew, true⟩ :: (t₁ ++ ⟨.soapCall s (soapBegin c) ep req, x⟩ :: t₂)) ↔
        Clean t₁ := by
      simp [hc₂, Failing]
    have hord : Ordered (⟨.soapNew, true⟩ :: (t₁ ++ ⟨.soapCall s (soapBegin c) ep req, x⟩ :: t₂)) ↔
        Clean t₁ ∨ ¬ x.Transmitted := by
      simp [ordered_cons, ordered_append, ordered_of_unsent hu.unsent, ordered_of_unsent hu₂.unsent, hu₂.unsent,
        Failing, Sent]
    have htoken : (∀ s', Clean (before s' (⟨.soapNew, true⟩ ::
          (t₁ ++ ⟨.soapCall s (soapBegin c) ep req, x⟩ :: t₂))) ∨
        Untaken s' (⟨.soapNew, true⟩ :: (t₁ ++ ⟨.soapCall s (soapBegin c) ep req, x⟩ :: t₂))) ↔
        Clean t₁ ∨ ¬ x.Transmitted := by
      simp only [before_cons, before_append hu, Untaken, exchanges_cons, exchanges_append, exchanges_uncalled hu,
        exchanges_uncalled hu₂, exchange]
      constructor
      · intro hall
        simpa [Calls, Failing] using hall s
      · intro hone s'
        by_cases hs' : s = s'
        · subst hs'
          simpa [Calls, Failing] using hone
        · simp [hs']
    have hfailed (hc : ¬ Clean t₁) (ho : Clean t₁ ∨ ¬ x.Transmitted) :
        ∃ e, e ≠ soapOk ∧ r.map g = .ok (if counts then 0 else e) := by
      cases x with
      | unsent e he => exact ⟨e, he, hn e (soapBegin c) he _ _ h₃⟩
      | sent reply => exact absurd (ho.resolve_left hc) (not_not.mpr trivial)
    rw [hclean, htoken]
    constructor
    · intro ha
      have ho := hord.mp ha.ordered
      refine ⟨hwhole, ho, ?_⟩
      intro hcount
      by_contra hc
      obtain ⟨m, hr, hm⟩ := ha.reported (fun h => hc (hclean.mp h))
      obtain ⟨e, _, hr'⟩ := hfailed hc ho
      rw [hr', Except.ok.injEq, if_pos hcount] at hr
      exact hm hr.symm
    · rintro ⟨_, ho, hcount⟩
      refine ⟨?_, hord.mpr ho, ?_⟩
      · intro s' c' ep' req' x' hmem hx'
        simp only [List.mem_cons, List.mem_append] at hmem
        rcases hmem with he | he | he | he
        · cases he
        · exact absurd hx' (hu.unsent _ he)
        · cases he
          rcases ho with hc | hx
          · refine ⟨token, (hs hc).mono ?_, hh⟩
            intro e he
            simp [he]
          · exact absurd hx' hx
        · exact absurd hx' (hu₂.unsent _ he)
      · intro hc
        obtain ⟨e, he, hr⟩ := hfailed (fun h => hc (hclean.mpr h)) ho
        cases counts with
        | true => exact absurd (hclean.mpr (hcount rfl)) hc
        | false => exact ⟨e, hr, he⟩

end OneRequest

theorem authenticates_nil (u p : CStr) (r : Outcome ℤ) : Authenticates u p [] r :=
  ⟨fun _ _ _ _ _ h => absurd h List.not_mem_nil, .nil, fun h => absurd clean_nil h⟩

theorem careful_nil (call : ServiceCall) : Careful call [] :=
  ⟨whole_nil, fun _ => .inl clean_nil, fun _ _ _ => clean_nil, fun _ _ _ _ hx => nomatch hx⟩

theorem stopped_iff {call : ServiceCall} {u p : CStr} {t : Trace} {r : Outcome ℤ} {e : Fault}
    (h : Runs (.stop e) t r) : Authenticates u p t r ↔ Careful call t := by
  obtain ⟨rfl, rfl⟩ := runs_stop.mp h
  exact ⟨fun _ => careful_nil call, fun _ => authenticates_nil u p _⟩

theorem careful_iff {call : ServiceCall} (hset : ∀ ep venc, call ≠ .setVideoEncoderConfiguration ep venc)
    (t : Trace) : Careful call t ↔
      Whole t ∧ (∀ s, Clean (before s t) ∨ Untaken s t) ∧
        ∀ ep profiles, call = .getProfiles ep profiles → Clean t :=
  ⟨fun h => ⟨h.whole, h.token, h.count⟩,
    fun h => ⟨h.1, h.2.1, h.2.2, fun ep venc hc => absurd hc (hset ep venc)⟩⟩

theorem getCapabilities_iff {ep : Ptr CStr} {capa : Ptr TagCapabilities} {u p : CStr} {t : Trace}
    {r : Outcome ℤ} (h : Runs ((ServiceCall.getCapabilities ep capa).program .debug (some u) (some p)) t r) :
    Authenticates u p t r ↔ Careful (.getCapabilities ep capa) t := by
  cases ep with
  | none => exact stopped_iff h
  | some ep =>
    cases capa with
    | none => exact stopped_iff h
    | some capa =>
      obtain ⟨r, h', rfl⟩ := runs_map.mp h
      rw [oneRequest_iff _ false h', careful_iff (fun _ _ => by simp)]
      · simp
      · rintro ⟨result, soap, rep⟩
        apply checked_idle
        apply (runDump_keepsTo _).bind
        intro _
        exact soapExit_keepsTo trivial _ _
      · intro e c he t r h
        rw [checked_unsent he h]
        rfl

theorem newProfiles_idle (rep : TrtGetProfilesResponse) (profiles : Ptr (Ptr (List TagProfile))) :
    KeepsTo Idle (newProfiles .debug rep profiles) := by
  unfold newProfiles
  split_ifs
  · apply (deref_keepsTo profiles).bind
    intro _
    refine ⟨trivial, fun found _ => ?_⟩
    cases found <;> trivial
  · trivial

theorem storeUri_idle (mediaUri : Ptr TtMediaUri) (uri : List UInt8) (sizeuri : UInt32) :
    KeepsTo Idle (storeUri mediaUri uri sizeuri) := by
  unfold storeUri
  cases mediaUri.bind (·.uri) with
  | none => trivial
  | some s =>
    simp only
    split_ifs
    · exact (lift_keepsTo _).bind fun _ => trivial
    · trivial

theorem getProfiles_iff {ep : Ptr CStr} {profiles : Ptr (Ptr (List TagProfile))} {u p : CStr} {t : Trace}
    {r : Outcome ℤ} (h : Runs ((ServiceCall.getProfiles ep profiles).program .debug (some u) (some p)) t r) :
    Authenticates u p t r ↔ Careful (.getProfiles ep profiles) t := by
  cases ep with
  | none => exact stopped_iff h
  | some ep =>
    obtain ⟨r, h', rfl⟩ := runs_map.mp h
    rw [oneRequest_iff _ true h', careful_iff (fun _ _ => by simp)]
    · simp
    · rintro ⟨result, soap, rep⟩
      apply checked_idle
      apply (runDump_keepsTo _).bind
      intro _
      exact (newProfiles_idle _ _).bind fun _ => soapExit_keepsTo trivial _ _
    · intro e c he t r h
      rw [checked_unsent he h]
      rfl

theorem getStreamUri_iff {ep token : Ptr CStr} {uri : Ptr (List UInt8)} {sizeuri : UInt32} {u p : CStr}
    {t : Trace} {r : Outcome ℤ}
    (h : Runs ((ServiceCall.getStreamUri ep token uri sizeuri).program .debug (some u) (some p)) t r) :
    Authenticates u p t r ↔ Careful (.getStreamUri ep token uri sizeuri) t := by
  cases ep with
  | none => exact stopped_iff h
  | some ep =>
    cases uri with
    | none => exact stopped_iff h
    | some uri =>
      obtain ⟨r, h', rfl⟩ := runs_map.mp h
      simp only [onvifGetStreamUri, soapAssert_some, deref_some, ret_bind] at h'
      cases hset : memset uri 0 sizeuri.toNat with
      | error e =>
        simp only [hset, lift_error, stop_bind] at h'
        exact stopped_iff (runs_map.mpr ⟨r, h', rfl⟩)
      | ok uri' =>
        simp only [hset, lift_ok, ret_bind] at h'
        rw [oneRequest_iff _ false h', careful_iff (fun _ _ => by simp)]
        · simp
        · rintro ⟨result, soap, rep⟩
          apply checked_idle
          apply (runDump_keepsTo _).bind
          intro _
          exact (storeUri_idle _ _ _).bind fun _ => soapExit_keepsTo trivial _ _
        · intro e c he t r h
          rw [checked_unsent he h]
          rfl

theorem getSnapshotUri_iff {ep token : Ptr CStr} {uri : Ptr (List UInt8)} {sizeuri : UInt32} {u p : CStr}
    {t : Trace} {r : Outcome ℤ}
    (h : Runs ((ServiceCall.getSnapshotUri ep token uri sizeuri).program .debug (some u) (some p)) t r) :
    Authenticates u p t r ↔ Careful (.getSnapshotUri ep token uri sizeuri) t := by
  cases ep with
  | none => exact stopped_iff h
  | some ep =>
    cases uri with
    | none => exact stopped_iff h
    | some uri =>
      obtain ⟨r, h', rfl⟩ := runs_map.mp h
      simp only [onvifGetSnapshotUri, soapAssert_some, deref_some, ret_bind] at h'
      cases hset : memset uri 0 sizeuri.toNat with
      | error e =>
        simp only [hset, lift_error, stop_bind] at h'
        exact stopped_iff (runs_map.mpr ⟨r, h', rfl⟩)
      | ok uri' =>
        simp only [hset, lift_ok, ret_bind] at h'
        rw [oneRequest_iff _ false h', careful_iff (fun _ _ => by simp)]
        · simp
        · rintro ⟨result, soap, rep⟩
          apply checked_idle
          apply (runDump_keepsTo _).bind
          intro _
          exact (storeUri_idle _ _ _).bind fun _ => soapExit_keepsTo trivial _ _
        · intro e c he t r h
          rw [checked_unsent he h]
          rfl

theorem except_map_id {ε α : Type} (r : Except ε α) : r.map id = r := by cases r <;> rfl

theorem getVideoEncoderConfigurationOptions_iff {ep token : Ptr CStr} {u p : CStr} {t : Trace} {r : Outcome ℤ}
    (h : Runs ((ServiceCall.getVideoEncoderConfigurationOptions ep token).program .debug (some u) (some p))
      t r) :
    Authenticates u p t r ↔ Careful (.getVideoEncoderConfigurationOptions ep token) t := by
  cases ep with
  | none => exact stopped_iff h
  | some ep =>
    rw [← except_map_id r, oneRequest_iff id false h, careful_iff (fun _ _ => by simp)]
    · simp
    · rintro ⟨result, soap, rep⟩
      apply checked_idle
      exact (runDump_keepsTo _).bind fun _ => soapExit_keepsTo trivial _ _
    · intro e c he t r h
      rw [checked_unsent he h]
      rfl

theorem getVideoEncoderConfiguration_iff {ep token : Ptr CStr} {u p : CStr} {t : Trace} {r : Outcome ℤ}
    (h : Runs ((ServiceCall.getVideoEncoderConfiguration ep token).program .debug (some u) (some p))
      t r) :
    Authenticates u p t r ↔ Careful (.getVideoEncoderConfiguration ep token) t := by
  cases ep with
  | none => exact stopped_iff h
  | some ep =>
    rw [← except_map_id r, oneRequest_iff id false h, careful_iff (fun _ _ => by simp)]
    · simp
    · rintro ⟨result, soap, rep⟩
      apply checked_idle
      exact (runDump_keepsTo _).bind fun _ => soapExit_keepsTo trivial _ _
    · intro e c he t r h
      rw [checked_unsent he h]
      rfl

theorem bare_of_eq_headerOf {h : SoapEnvHeader} {s : WsseSecurity} {token token' : WsseUsernameToken}
    (he : { h with wsseSecurity := some { s with usernameToken := some token } } = headerOf token')
    (hs : ∀ s', h.wsseSecurity = some s' → s = s') : Bare h := by
  refine ⟨congrArg (fun x : SoapEnvHeader => { x with wsseSecurity := none }) he, ?_⟩
  intro s' hsec
  obtain rfl := hs s' hsec
  have hsecurity : some { s with usernameToken := some token } =
      some ({ usernameToken := some token' } : WsseSecurity) := congrArg SoapEnvHeader.wsseSecurity he
  exact congrArg (fun x : WsseSecurity => { x with usernameToken := none }) (Option.some.inj hsecurity)

theorem eq_headerOf_of_bare {h : SoapEnvHeader} (hb : Bare h) (token : WsseUsernameToken) :
    { h with wsseSecurity := some { h.wsseSecurity.getD {} with usernameToken := some token } } =
      headerOf token := by
  have hs : { h.wsseSecurity.getD {} with usernameToken := some token } =
      ({ usernameToken := some token } : WsseSecurity) := by
    cases hw : h.wsseSecurity with
    | none => rfl
    | some s => exact congrArg (fun y : WsseSecurity => { y with usernameToken := some token }) (hb.2 s hw)
  rw [hs]
  exact congrArg
    (fun y : SoapEnvHeader => { y with wsseSecurity := some { usernameToken := some token } }) hb.1

theorem bare_of_secured {c : Soap} {token token' : WsseUsernameToken}
    (h : secured c { c.security.getD {} with usernameToken := some token } = headerOf token')
    {hd : SoapEnvHeader} (hc : c.header = some hd) : Bare hd := by
  have hs : c.security = hd.wsseSecurity := by rw [Soap.security, hc, Option.bind_some]
  rw [secured, hc, hs, Option.getD_some] at h
  apply bare_of_eq_headerOf h
  intro s hsec
  rw [hsec, Option.getD_some]

theorem secured_of_bare {c : Soap} (hb : ∀ hd, c.header = some hd → Bare hd) (token : WsseUsernameToken) :
    secured c { c.security.getD {} with usernameToken := some token } = headerOf token := by
  cases hc : c.header with
  | none =>
    have hs : c.security = none := by rw [Soap.security, hc, Option.bind_none]
    rw [secured, hc, hs]
    rfl
  | some hd =>
    have hs : c.security = hd.wsseSecurity := by rw [Soap.security, hc, Option.bind_some]
    rw [secured, hc, hs, Option.getD_some]
    exact eq_headerOf_of_bare (hb hd hc) token

theorem bare_headerOf (token : WsseUsernameToken) : Bare (headerOf token) := by
  refine ⟨rfl, ?_⟩
  rintro s hs
  obtain rfl := Option.some.inj hs
  rfl

section TwoRequests

variable {ep : CStr} {venc : TagVideoEncoderConfiguration} {u p : CStr} {t : Trace} {r : Outcome ℤ}

abbrev getEvent (c : Soap) (ep : CStr) (req : TrtGetVideoEncoderConfiguration)
    (x : Exchange TrtGetVideoEncoderConfigurationResponse) : Event gsoap :=
  ⟨.soapCall .getVideoEncoderConfiguration c (some ep) req, x⟩

abbrev setEvent (c : Soap) (ep : CStr) (req : TrtSetVideoEncoderConfiguration)
    (x : Exchange TrtSetVideoEncoderConfigurationResponse) : Event gsoap :=
  ⟨.soapCall .setVideoEncoderConfiguration c (some ep) req, x⟩

theorem setTrace_runs
    (h : Runs (onvifSetVideoEncoderConfiguration .debug (some ep) (some venc) (some u) (some p)) t r) :
    (t = [⟨.soapNew, false⟩]) ∨ (¬ Whole t ∧ ∃ e, r = .error e) ∨
      ∃ t₁ c get x token n, Uncalled t₁ ∧ Whole t₁ ∧ c.header = some (headerOf token) ∧
        (Clean t₁ → Signed u p t₁ token) ∧ r = .ok n ∧
        ((t = ⟨.soapNew, true⟩ :: (t₁ ++ [getEvent c ep get x, ⟨.soapDelete, ()⟩]) ∧
            (¬ x.Transmitted → n ≠ 0)) ∨
          ∃ t₃ c₃ set y token', x.Accepted ∧ (x.reply {}).rep.configuration ≠ none ∧ t = ⟨.soapNew, true⟩ ::
              (t₁ ++ getEvent c ep get x :: (t₃ ++ [setEvent c₃ ep set y, ⟨.soapDelete, ()⟩])) ∧
            Uncalled t₃ ∧ Whole t₃ ∧ (Clean t₃ → Signed u p t₃ token') ∧ (¬ y.Transmitted → n ≠ 0) ∧
            c₃.header = some (secured (c.received (x.reply {})) { (c.received (x.reply {})).security.getD {}
              with usernameToken := some token' })) := by
  rcases newContext_runs.mp h with ⟨rfl, _⟩ | ⟨t, rfl, h₁⟩
  · exact .inl rfl
  right
  rcases request_runs h₁ with ⟨e, h₂, rfl⟩ | ⟨_, c, x, t₁, t₂, h₂, rfl, h₃⟩
  · obtain ⟨_, ⟨_, _, hw⟩ | ⟨_, _, _, hr, _⟩⟩ := freshAuth_runs h₂
    · exact .inl ⟨by simp [hw], e, rfl⟩
    · cases hr
  obtain ⟨hu, ⟨_, hr, _⟩ | ⟨_, _, token, hr, hw, hh, hs⟩⟩ := freshAuth_runs h₂
  · cases hr
  cases hr
  by_cases ha : x.Accepted
  · have hf := Exchange.failure_of_accepted ha (Service.zero .getVideoEncoderConfiguration)
    simp only [soapCheckError_received, hf, ret_bind] at h₃
    cases hcfg : (x.reply (Service.zero .getVideoEncoderConfiguration)).rep.configuration with
    | none =>
      simp only [hcfg] at h₃
      obtain ⟨rfl, rfl⟩ := soapExit_runs.mp h₃
      exact .inr ⟨t₁, soapBegin c, ⟨some venc.token.str⟩, x, token, _, hu, hw, hh, hs, rfl,
        .inl ⟨rfl, fun hx => absurd ha.transmitted hx⟩⟩
    | some cfg =>
      simp only [hcfg] at h₃
      rcases request_runs h₃ with ⟨e, h₄, rfl⟩ | ⟨_, c₃, y, t₃, t₄, h₄, rfl, h₅⟩
      · rcases onvifSetAuthInfo_runs h₄ with ⟨_, hw'⟩ | ⟨_, _, hr, _⟩
        · exact .inl ⟨by simp [hw'], e, rfl⟩
        · cases hr
      rcases onvifSetAuthInfo_runs h₄ with ⟨hr, _⟩ | ⟨_, _, hr, hw₃, _, token', hh₃, hs₃⟩
      · cases hr
      cases hr
      simp only [soapCheckError_received, ret_bind] at h₅
      obtain ⟨rfl, rfl⟩ := soapExit_runs.mp h₅
      refine .inr ⟨t₁, soapBegin c, ⟨some venc.token.str⟩, x, token, _, hu, hw, hh, hs, rfl,
        .inr ⟨t₃, soapBegin c₃, ⟨some (setResolution venc cfg), true⟩, y, token', ha, ?_, rfl, uncalled_tokenSteps
          ((onvifSetAuthInfo_tokenStep _ _ _ _).runs h₄), hw₃, hs₃, ?_, hh₃⟩⟩
      · intro hnone
        cases hcfg.symm.trans hnone
      intro hy
      obtain ⟨e, hf', he⟩ := Exchange.failure_of_not_accepted (fun ha' => hy ha'.transmitted)
        (Service.zero .setVideoEncoderConfiguration)
      rw [hf']
      exact he
  · obtain ⟨e, hf, he⟩ := Exchange.failure_of_not_accepted ha
      (Service.zero .getVideoEncoderConfiguration)
    simp only [soapCheckError_received, hf, ret_bind] at h₃
    obtain ⟨rfl, rfl⟩ := soapExit_runs.mp h₃
    exact .inr ⟨t₁, soapBegin c, ⟨some venc.token.str⟩, x, token, _, hu, hw, hh, hs, rfl,
      .inl ⟨rfl, fun _ => he⟩⟩

variable {t₁ t₃ : Trace} {c c₃ : Soap} {get : TrtGetVideoEncoderConfiguration}
  {set : TrtSetVideoEncoderConfiguration} {x : Exchange TrtGetVideoEncoderConfigurationResponse}
  {y : Exchange TrtSetVideoEncoderConfigurationResponse} {token token' : WsseUsernameToken} {n : ℤ}
  {call : ServiceCall}

theorem oneOfTwo_iff {ep' : Ptr CStr} {venc' : Ptr TagVideoEncoderConfiguration} (hu : Uncalled t₁)
    (hw : Whole t₁) (hh : c.header = some (headerOf token)) (hs : Clean t₁ → Signed u p t₁ token)
    (hn : ¬ x.Transmitted → n ≠ 0) :
    Authenticates u p (⟨.soapNew, true⟩ :: (t₁ ++ [getEvent c ep get x, ⟨.soapDelete, ()⟩])) (.ok n) ↔
      Careful (.setVideoEncoderConfiguration ep' venc')
        (⟨.soapNew, true⟩ :: (t₁ ++ [getEvent c ep get x, ⟨.soapDelete, ()⟩])) := by
  have hord : Ordered (⟨.soapNew, true⟩ :: (t₁ ++ [getEvent c ep get x, ⟨.soapDelete, ()⟩])) ↔
      Clean t₁ ∨ ¬ x.Transmitted := by
    simp [ordered_cons, ordered_append, ordered_of_unsent hu.unsent, ordered_nil, Failing, Sent]
  have htoken : (∀ s, Clean (before s (⟨.soapNew, true⟩ :: (t₁ ++ [getEvent c ep get x, ⟨.soapDelete, ()⟩]))) ∨
      Untaken s (⟨.soapNew, true⟩ :: (t₁ ++ [getEvent c ep get x, ⟨.soapDelete, ()⟩]))) ↔
      Clean t₁ ∨ ¬ x.Transmitted := by
    simp only [before_cons, before_append hu, Untaken, exchanges_cons, exchanges_append, exchanges_uncalled hu,
      exchanges_nil, exchange]
    constructor
    · intro hall
      simpa [Calls, Failing] using hall .getVideoEncoderConfiguration
    · intro hone s
      by_cases hs : .getVideoEncoderConfiguration = s
      · subst hs
        simpa [Calls, Failing] using hone
      · simp [hs]
  have hsent {e : Event gsoap} (he : e ∈ (⟨.soapNew, true⟩ : Event gsoap) ::
      (t₁ ++ [getEvent c ep get x, ⟨.soapDelete, ()⟩])) (hx : Sent e) : e = getEvent c ep get x := by
    simp only [List.mem_cons, List.mem_append, List.not_mem_nil, or_false] at he
    rcases he with rfl | he | rfl | rfl
    · exact hx.elim
    · exact absurd hx (hu.unsent e he)
    · rfl
    · exact hx.elim
  constructor
  · intro ha
    refine ⟨by simp [hw, Losing], htoken.mpr (hord.mp ha.ordered), (by intro _ _ hc; cases hc), ?_⟩
    refine fun _ _ _ _ _ _ _ => .inr ?_
    intro y hy hx
    obtain ⟨_, _, hm⟩ := mem_exchanges.mp hy
    cases hsent hm hx
  · intro hc
    have ho := htoken.mp hc.token
    refine ⟨?_, hord.mpr ho, ?_⟩
    · intro s c' ep' req x' hm hx
      cases hsent hm hx
      have hclean := ho.resolve_right (not_not.mpr hx)
      refine ⟨token, (hs hclean).mono ?_, hh⟩
      intro e he
      simp [he]
    · intro hf
      refine ⟨n, rfl, hn ?_⟩
      apply ho.resolve_left
      intro hclean
      exact hf (by simp [hclean, Failing])

theorem twoOfTwo_iff {ep' : Ptr CStr} {venc' : Ptr TagVideoEncoderConfiguration} (hu : Uncalled t₁)
    (hw : Whole t₁) (hh : c.header = some (headerOf token)) (hs : Clean t₁ → Signed u p t₁ token)
    (ha : x.Accepted) (hcfg : (x.reply {}).rep.configuration ≠ none) (hu₃ : Uncalled t₃) (hw₃ : Whole t₃)
    (hs₃ : Clean t₃ → Signed u p t₃ token')
    (hh₃ : c₃.header = some (secured (c.received (x.reply {})) { (c.received (x.reply {})).security.getD {}
      with usernameToken := some token' }))
    (hn : ¬ y.Transmitted → n ≠ 0) :
    Authenticates u p (⟨.soapNew, true⟩ ::
        (t₁ ++ getEvent c ep get x :: (t₃ ++ [setEvent c₃ ep set y, ⟨.soapDelete, ()⟩]))) (.ok n) ↔
      Careful (.setVideoEncoderConfiguration ep' venc') (⟨.soapNew, true⟩ ::
        (t₁ ++ getEvent c ep get x :: (t₃ ++ [setEvent c₃ ep set y, ⟨.soapDelete, ()⟩]))) := by
  have hord : Ordered (⟨.soapNew, true⟩ ::
      (t₁ ++ getEvent c ep get x :: (t₃ ++ [setEvent c₃ ep set y, ⟨.soapDelete, ()⟩]))) ↔
      Clean t₁ ∧ (Clean t₃ ∨ ¬ y.Transmitted) := by
    simp [ordered_cons, ordered_append, ordered_of_unsent hu.unsent, ordered_of_unsent hu₃.unsent, ordered_nil,
      Failing, Sent, ha.transmitted, and_comm]
  have htoken : (∀ s, Clean (before s (⟨.soapNew, true⟩ ::
        (t₁ ++ getEvent c ep get x :: (t₃ ++ [setEvent c₃ ep set y, ⟨.soapDelete, ()⟩])))) ∨
      Untaken s (⟨.soapNew, true⟩ ::
        (t₁ ++ getEvent c ep get x :: (t₃ ++ [setEvent c₃ ep set y, ⟨.soapDelete, ()⟩])))) ↔
      Clean t₁ ∧ (Clean t₃ ∨ ¬ y.Transmitted) := by
    simp only [before_cons, before_append hu, before_append hu₃, Untaken, exchanges_cons, exchanges_append,
      exchanges_uncalled hu, exchanges_uncalled hu₃, exchanges_nil, exchange]
    constructor
    · intro hall
      have hget := hall .getVideoEncoderConfiguration
      have hset := hall .setVideoEncoderConfiguration
      simp [Calls, Failing, ha.transmitted] at hget hset
      tauto
    · rintro ⟨hone, htwo⟩ s
      cases s <;> simp [Calls, Failing, hone, htwo]
  have hsent {e : Event gsoap} (he : e ∈ (⟨.soapNew, true⟩ : Event gsoap) ::
      (t₁ ++ getEvent c ep get x :: (t₃ ++ [setEvent c₃ ep set y, ⟨.soapDelete, ()⟩]))) (hx : Sent e) :
      e = getEvent c ep get x ∨ e = setEvent c₃ ep set y := by
    simp only [List.mem_cons, List.mem_append, List.not_mem_nil, or_false] at he
    rcases he with rfl | he | rfl | he | rfl | rfl
    · exact hx.elim
    · exact absurd hx (hu.unsent e he)
    · exact .inl rfl
    · exact absurd hx (hu₃.unsent e he)
    · exact .inr rfl
    · exact hx.elim
  constructor
  · intro hauth
    refine ⟨by simp [hw, hw₃, Losing], htoken.mpr (hord.mp hauth.ordered), (by intro _ _ hc; cases hc), ?_⟩
    rintro _ _ _ ⟨_, x'⟩ hget hx' _
    by_cases hyt : y.Transmitted
    · left
      intro hd hhd
      obtain ⟨token'', _, hheader⟩ := hauth.signed .setVideoEncoderConfiguration c₃ (some ep) set y
        (by simp) hyt
      rw [hh₃] at hheader
      obtain ⟨_, _, hm⟩ := mem_exchanges.mp hget
      obtain ⟨⟨⟩⟩ | he := hsent hm (Exchange.Accepted.transmitted hx')
      · apply bare_of_secured (Option.some.inj hheader)
        simp only [Soap.received, hhd, Option.getD_some]
      · cases he
    · right
      rintro ⟨_, y'⟩ hy hx
      obtain ⟨_, _, hm⟩ := mem_exchanges.mp hy
      rcases hsent hm hx with he | he
      · cases he
      · cases he
        exact hyt hx
  · intro hc
    have ho := htoken.mp hc.token
    obtain ⟨hclean, hclean₃⟩ := id ho
    refine ⟨?_, hord.mpr ho, ?_⟩
    · intro s c' ep' req' x' hm hx
      rcases hsent hm hx with he | he
      · cases he
        refine ⟨token, (hs hclean).mono ?_, hh⟩
        intro e he
        simp [he]
      · cases he
        have hbare : ∀ hd, (c.received (x.reply {})).header = some hd → Bare hd := by
          intro hd hhd
          cases hr : (x.reply {}).header with
          | none =>
            simp only [Soap.received, hr, Option.getD_none, hh] at hhd
            exact Option.some.inj hhd ▸ bare_headerOf token
          | some hp =>
            simp only [Soap.received, hr, Option.getD_some] at hhd
            rcases hc.bare _ _ rfl (get, x) (mem_exchanges.mpr ⟨c, some ep, by simp⟩) ha hcfg with hb | hy
            · exact hb hd (hr.trans (congrArg some hhd))
            · exact absurd hx (hy (set, y) (mem_exchanges.mpr ⟨c₃, some ep, hm⟩))
        refine ⟨token', (hs₃ (hclean₃.resolve_right (not_not.mpr hx))).mono ?_,
          by rw [hh₃, secured_of_bare hbare]⟩
        intro e he
        simp [he]
    · intro hf
      refine ⟨n, rfl, hn ?_⟩
      apply hclean₃.resolve_left
      intro hc₃
      exact hf (by simp [hclean, hc₃, Failing])

theorem setVideoEncoderConfiguration_iff {ep : Ptr CStr} {venc : Ptr TagVideoEncoderConfiguration}
    (h : Runs ((ServiceCall.setVideoEncoderConfiguration ep venc).program .debug (some u) (some p)) t r) :
    Authenticates u p t r ↔ Careful (.setVideoEncoderConfiguration ep venc) t := by
  cases ep with
  | none => exact stopped_iff h
  | some ep =>
    cases venc with
    | none => exact stopped_iff h
    | some venc =>
      rcases setTrace_runs h with rfl | ⟨hw, e, rfl⟩ | ⟨t₁, c, get, x, token, n, hu, hw, hh, hs, rfl, hcases⟩
      · have hnil : Unsent [⟨.soapNew, false⟩] := by simp [Sent]
        constructor
        · intro _
          exact ⟨by simp [Losing], fun _ => .inr (untaken_of_nil rfl), fun _ _ _ => by simp [Failing],
            fun _ _ _ _ _ _ _ => .inr (untaken_of_nil rfl)⟩
        · intro _
          refine ⟨?_, ordered_of_unsent hnil, fun hc => absurd (by simp [Failing]) hc⟩
          intro s c ep' req x hm hx
          exact absurd hx (hnil _ hm)
      · constructor
        · intro ha
          obtain ⟨_, hr, _⟩ := ha.reported (not_clean_of_not_whole hw)
          cases hr
        · intro hc
          exact absurd hc.whole hw
      rcases hcases with ⟨rfl, hn⟩ | ⟨t₃, c₃, set, y, token', ha, hcfg, rfl, hu₃, hw₃, hs₃, hn, hh₃⟩
      · exact oneOfTwo_iff hu hw hh hs hn
      · exact twoOfTwo_iff hu hw hh hs ha hcfg hu₃ hw₃ hs₃ hh₃ hn

end TwoRequests

/-- Every request is signed, and a failed token holds every request back and is reported, exactly in
the careful runs. -/
theorem services_authenticate_iff {call : ServiceCall} {u p : CStr} {t : Trace} {r : Outcome ℤ}
    (h : Runs (call.program .debug (some u) (some p)) t r) : Authenticates u p t r ↔ Careful call t := by
  cases call with
  | getCapabilities ep capa => exact getCapabilities_iff h
  | getProfiles ep profiles => exact getProfiles_iff h
  | getStreamUri ep token uri sizeuri => exact getStreamUri_iff h
  | getSnapshotUri ep token uri sizeuri => exact getSnapshotUri_iff h
  | getVideoEncoderConfigurationOptions ep token => exact getVideoEncoderConfigurationOptions_iff h
  | getVideoEncoderConfiguration ep token => exact getVideoEncoderConfiguration_iff h
  | setVideoEncoderConfiguration ep venc => exact setVideoEncoderConfiguration_iff h

def secret : CStr := .lit "secret"

def chatty (s : Service) (_ : Soap) (_ : Ptr CStr) (_ : s.Req) : Exchange s.Rep :=
  let header : Option (Ptr SoapEnvHeader) := some (some { wsaMessageID := some (.lit "urn:uuid:1") })
  match s with
  | .getVideoEncoderConfiguration => .sent ⟨soapOk, soapOk, header, ⟨some {}⟩⟩
  | s => .sent ⟨soapOk, soapOk, header, s.zero⟩

def full : List (Reply WsddProbeMatches) → (o : Op) → o.Ans × List (Reply WsddProbeMatches)
  | q, .soapMalloc (.bytes _) => (false, q)
  | q, o => host chatty q o

def hd : TagVideoEncoderConfiguration := resized 1280 720

def fullRun : Trace × Outcome ℤ × List (Reply WsddProbeMatches) :=
  exec (S := gsoap) full ((ServiceCall.getCapabilities media (some (tagCapabilities {}))).program .debug
    (some admin) (some secret)) []

def chattyRun : Trace × Outcome ℤ :=
  onHost chatty [] ((ServiceCall.setVideoEncoderConfiguration media (some hd)).program .debug (some admin)
    (some secret))

theorem fullRun_runs :
    Runs ((ServiceCall.getCapabilities media (some (tagCapabilities {}))).program .debug (some admin)
      (some secret)) fullRun.1 fullRun.2.1 := exec_runs (S := gsoap) full _ []

theorem chattyRun_runs :
    Runs ((ServiceCall.setVideoEncoderConfiguration media (some hd)).program .debug (some admin)
      (some secret)) chattyRun.1 chattyRun.2 := onHost_runs _ _ _

/-- A request goes out and succeeds without the user name that could not be copied, and the second
request of a change of resolution repeats the message id of the first reply. -/
theorem services_send_unsigned :
    (∃ t, Runs ((ServiceCall.getCapabilities media (some (tagCapabilities {}))).program .debug (some admin)
        (some secret)) t (.ok 0) ∧ ¬ Clean t ∧ ¬ Authenticates admin secret t (.ok 0)) ∧
    ∃ t, Runs ((ServiceCall.setVideoEncoderConfiguration media (some hd)).program .debug (some admin)
        (some secret)) t (.ok 0) ∧
      (∃ c ep req x h, ⟨.soapCall .setVideoEncoderConfiguration c ep req, x⟩ ∈ t ∧
        c.header = some h ∧ h.wsaMessageID = some (.lit "urn:uuid:1")) ∧
      ¬ Authenticates admin secret t (.ok 0) := by
  constructor
  · have hfail : ¬ Clean fullRun.1 := by
      intro hc
      exact hc ⟨.soapMalloc (.bytes 29), false⟩ (List.mem_of_getElem? (i := 5) rfl) rfl
    refine ⟨_, fullRun_runs, hfail, ?_⟩
    intro ha
    obtain ⟨n, hr, hn⟩ := ha.reported hfail
    cases hr
    exact hn rfl
  · refine ⟨_, chattyRun_runs, ⟨_, _, _, _, _, List.mem_of_getElem? (i := 25) rfl, rfl, rfl⟩, ?_⟩
    intro ha
    obtain ⟨token, _, hh⟩ := ha.signed _ _ _ _ _
      (List.mem_of_getElem? (l := chattyRun.1) (i := 25) rfl) trivial
    have hid := congrArg SoapEnvHeader.wsaMessageID (Option.some.inj hh)
    cases hid

def silent (s : Service) (_ : Soap) (_ : Ptr CStr) (_ : s.Req) : Exchange s.Rep :=
  match s with
  | .getVideoEncoderConfiguration => .sent ⟨soapOk, soapOk, none, ⟨some {}⟩⟩
  | s => .sent ⟨soapOk, soapOk, none, s.zero⟩

def silentRun : Trace × Outcome ℤ :=
  onHost silent [] ((ServiceCall.setVideoEncoderConfiguration media (some hd)).program .debug (some admin)
    (some secret))

theorem silentRun_runs :
    Runs ((ServiceCall.setVideoEncoderConfiguration media (some hd)).program .debug (some admin)
      (some secret)) silentRun.1 silentRun.2 := onHost_runs _ _ _

theorem services_authenticate_two_requests :
    (∃ t r, Runs ((ServiceCall.setVideoEncoderConfiguration media (some hd)).program .debug (some admin)
        (some secret)) t r ∧
      (Authenticates admin secret t r ↔ Careful (.setVideoEncoderConfiguration media (some hd)) t)) ∧
    ∃ t, Runs ((ServiceCall.setVideoEncoderConfiguration media (some hd)).program .debug (some admin)
        (some secret)) t (.ok 0) ∧
      (∃ y, exchanges .setVideoEncoderConfiguration t = [y] ∧ y.2.Accepted) ∧ Authenticates admin secret t (.ok 0) := by
  refine ⟨⟨_, _, chattyRun_runs, services_authenticate_iff chattyRun_runs⟩, _, silentRun_runs, ⟨_, rfl, rfl, rfl⟩, ?_⟩
  apply (services_authenticate_iff silentRun_runs).mpr
  have hclean : Clean silentRun.1 := onHost_clean _ _ _
  refine ⟨?_, fun s => .inl fun e he => hclean e ((List.takeWhile_prefix _).subset he), fun _ _ _ => hclean, ?_⟩
  · exact not_not.mp fun hw => not_clean_of_not_whole hw hclean
  · rintro _ _ _ x hx _ _
    obtain rfl := List.mem_singleton.mp hx
    exact .inl fun _ hd => nomatch hd

end OnvifSdk.Authentication
