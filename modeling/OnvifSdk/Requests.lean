import OnvifSdk.Service

namespace OnvifSdk

open Lib Program Gsoap

namespace Gsoap

def Op.TokenStep : Op → Prop
  | .soapMalloc _ | .soapDateTime2s | .soapWsseRandNonce | .calcDigest _ _ _ => True
  | _ => False

abbrev KeepsTo {α : Type} (P : Op → Prop) (p : Prog α) : Prop := Within (S := gsoap) P p

section NoStep

variable {α : Type} {P : Op → Prop}

theorem deref_keepsTo (p : Ptr α) : KeepsTo P (deref p) := by cases p <;> trivial

theorem lift_keepsTo (a : Outcome α) : KeepsTo P (lift a) := by cases a <;> trivial

theorem runDump_keepsTo (d : Dump) : KeepsTo P (runDump d) := by cases d <;> trivial

theorem soapAssert_keepsTo (b : Build) (c : Bool) : KeepsTo P (soapAssert b c) := by
  cases b <;> cases c <;> trivial

theorem soapCheckError_keepsTo (result : ℤ) (soap : Ptr Soap) : KeepsTo P (soapCheckError result soap) :=
  (deref_keepsTo soap).bind fun _ => trivial

theorem soapExit_keepsTo (h : P .soapDelete) (soap : Ptr Soap) (a : α) : KeepsTo P (soapExit soap a) := by
  cases soap with
  | none => trivial
  | some c => exact ⟨h, fun _ _ => trivial⟩

end NoStep

section Allocating

variable {P : Op → Prop} (hP : ∀ n, P (.soapMalloc n))

include hP

theorem soapMalloc_keepsTo (soap : Soap) (n : Size) : KeepsTo P (soapMalloc soap n) :=
  ⟨hP n, fun _ _ => trivial⟩

theorem soapStrdup_keepsTo (soap : Soap) (s : Ptr CStr) : KeepsTo P (soapStrdup soap s) := by
  cases s with
  | none => trivial
  | some s => exact (soapMalloc_keepsTo hP soap _).bind fun _ => trivial

theorem soapS2base64New_keepsTo (soap : Soap) (s : List UInt8) : KeepsTo P (soapS2base64New soap s) :=
  (soapMalloc_keepsTo hP soap _).bind fun _ => trivial

theorem soapHeader_keepsTo (soap : Soap) : KeepsTo P (soapHeader soap) := by
  unfold soapHeader
  cases soap.header with
  | some h => trivial
  | none => exact (soapMalloc_keepsTo hP soap _).bind fun _ => trivial

theorem soapWsseAddSecurity_keepsTo (soap : Soap) : KeepsTo P (soapWsseAddSecurity soap) := by
  apply (soapHeader_keepsTo hP soap).bind
  intro soap
  apply (deref_keepsTo soap.header).bind
  intro header
  cases header.wsseSecurity with
  | some s => trivial
  | none => exact (soapMalloc_keepsTo hP soap _).bind fun _ => trivial

theorem soapWsseAddUsernameTokenText_keepsTo (soap : Soap) (id username password : Ptr CStr) :
    KeepsTo P (soapWsseAddUsernameTokenText soap id username password) := by
  apply (soapWsseAddSecurity_keepsTo hP soap).bind
  rintro ⟨_, soap⟩
  apply (deref_keepsTo soap.security).bind
  intro security
  have hnew : KeepsTo P (soapWsseNewUsernameToken soap security) := by
    unfold soapWsseNewUsernameToken
    cases security.usernameToken with
    | some t => trivial
    | none => exact soapMalloc_keepsTo hP soap _
  apply hnew.bind
  rintro ⟨found, soap⟩
  cases found with
  | false => trivial
  | true =>
    apply (soapStrdup_keepsTo hP soap id).bind
    rintro ⟨id, soap⟩
    apply (soapStrdup_keepsTo hP soap username).bind
    rintro ⟨username, soap⟩
    cases password with
    | none => trivial
    | some password =>
      apply (soapMalloc_keepsTo hP soap _).bind
      rintro ⟨found, soap⟩
      cases found with
      | false => trivial
      | true => exact (soapStrdup_keepsTo hP soap _).bind fun _ => trivial

end Allocating

theorem soapWsseAddUsernameTokenDigest_tokenStep (soap : Soap) (id username password : Ptr CStr) :
    KeepsTo Op.TokenStep (soapWsseAddUsernameTokenDigest soap id username password) := by
  have hP : ∀ n, Op.TokenStep (.soapMalloc n) := fun _ => trivial
  apply (soapWsseAddSecurity_keepsTo hP soap).bind
  rintro ⟨found, soap⟩
  refine ⟨trivial, fun created _ => ⟨trivial, fun nonce _ => ?_⟩⟩
  apply (soapS2base64New_keepsTo hP soap _).bind
  rintro ⟨nonceBase64, soap⟩
  apply (deref_keepsTo password).bind
  intro password
  refine ⟨trivial, fun ha _ => ?_⟩
  apply (soapWsseAddUsernameTokenText_keepsTo hP _ id username _).bind
  rintro ⟨_, soap⟩
  apply (deref_keepsTo _).bind
  intro security
  apply (deref_keepsTo _).bind
  intro token
  apply (deref_keepsTo _).bind
  intro password
  apply (soapMalloc_keepsTo hP soap _).bind
  rintro ⟨found, soap⟩
  cases found with
  | false => trivial
  | true => exact (soapStrdup_keepsTo hP soap _).bind fun _ => trivial

def Reply.failure {ρ : Type} (x : Reply ρ) : Option ℤ :=
  if x.status ≠ soapOk then some x.status else if x.error ≠ soapOk then some x.error else none

@[simp] theorem soapCheckError_received {ρ : Type} (c : Soap) (x : Reply ρ) :
    soapCheckError x.status (some (c.received x)) = .ret x.failure := rfl

theorem soapCheckError_unsent {ρ : Type} {e : ℤ} (he : e ≠ soapOk) (c : Soap) (z : ρ) :
    soapCheckError e (some (c.received ⟨e, e, none, z⟩)) = .ret (some e) := by
  simp [soapCheckError, he]

theorem Reply.failure_of_ok {ρ : Type} {x : Reply ρ} (h : x.ok) : x.failure = none := by
  simp [Reply.failure, h.1, h.2]

theorem Reply.failure_of_not_ok {ρ : Type} {x : Reply ρ} (h : ¬ x.ok) :
    ∃ n, x.failure = some n ∧ n ≠ soapOk := by
  unfold Reply.failure
  by_cases hs : x.status = soapOk
  · have he : x.error ≠ soapOk := fun he => h ⟨hs, he⟩
    exact ⟨x.error, by simp [hs, he], he⟩
  · exact ⟨x.status, by simp [hs], hs⟩

theorem Exchange.failure_of_accepted {ρ : Type} {x : Exchange ρ} (h : x.Accepted) (z : ρ) :
    (x.reply z).failure = none := Reply.failure_of_ok ((x.accepted_iff z).mp h)

theorem Exchange.failure_of_not_accepted {ρ : Type} {x : Exchange ρ} (h : ¬ x.Accepted) (z : ρ) :
    ∃ n, (x.reply z).failure = some n ∧ n ≠ soapOk :=
  Reply.failure_of_not_ok fun ho => h ((x.accepted_iff z).mpr ho)

end Gsoap

theorem onvifSetAuthInfo_tokenStep (b : Build) (soap : Ptr Soap) (username password : Ptr CStr) :
    KeepsTo Op.TokenStep (onvifSetAuthInfo b soap username password) := by
  apply (soapAssert_keepsTo b _).bind
  intro _
  apply (soapAssert_keepsTo b _).bind
  intro _
  apply (deref_keepsTo soap).bind
  intro soap
  apply (soapWsseAddUsernameTokenDigest_tokenStep soap none username password).bind
  rintro ⟨result, soap⟩
  trivial

def freshSoap : Soap where
  namespaces := true
  recvTimeout := soapSockTimeout
  sendTimeout := soapSockTimeout
  connectTimeout := soapSockTimeout
  msgNosignal := true
  utfString := true

def exchange (s : Service) : Event gsoap → List (s.Req × Exchange s.Rep)
  | ⟨.soapCall s' _ _ req, x⟩ => if h : s' = s then [(h ▸ req, h ▸ x)] else []
  | _ => []

/-- The calls of one operation in a trace, with how each went. -/
def exchanges (s : Service) (t : Trace) : List (s.Req × Exchange s.Rep) := t.flatMap (exchange s)

@[simp] theorem exchange_same (s : Service) (c : Soap) (ep : Ptr CStr) (req : s.Req)
    (x : Exchange s.Rep) : exchange s ⟨.soapCall s c ep req, x⟩ = [(req, x)] := by
  simp [exchange]

theorem exchange_other {s s' : Service} (h : s' ≠ s) (c : Soap) (ep : Ptr CStr) (req : s'.Req)
    (x : Exchange s'.Rep) : exchange s ⟨.soapCall s' c ep req, x⟩ = [] := by
  simp [exchange, h]

@[simp] theorem exchanges_nil (s : Service) : exchanges s [] = [] := rfl

@[simp] theorem exchanges_append (s : Service) (t t' : Trace) :
    exchanges s (t ++ t') = exchanges s t ++ exchanges s t' := List.flatMap_append

@[simp] theorem exchanges_cons (s : Service) (e : Event gsoap) (t : Trace) :
    exchanges s (e :: t) = exchange s e ++ exchanges s t := List.flatMap_cons

theorem mem_exchanges {s : Service} {t : Trace} {y : s.Req × Exchange s.Rep} :
    y ∈ exchanges s t ↔ ∃ c ep, ⟨.soapCall s c ep y.1, y.2⟩ ∈ t := by
  rw [exchanges, List.mem_flatMap]
  constructor
  · rintro ⟨⟨o, x⟩, he, hy⟩
    cases o with
    | soapCall s' c ep req =>
      by_cases hs : s' = s
      · subst hs
        rw [exchange_same, List.mem_singleton] at hy
        subst hy
        exact ⟨c, ep, he⟩
      · rw [exchange_other hs] at hy
        cases hy
    | _ => cases hy
  · rintro ⟨c, ep, he⟩
    exact ⟨_, he, by rw [exchange_same]; exact List.mem_singleton_self _⟩

theorem exchanges_tokenSteps (s : Service) {t : Trace} (h : ∀ e ∈ t, e.1.TokenStep) :
    exchanges s t = [] := by
  apply List.flatMap_eq_nil_iff.mpr
  rintro ⟨o, x⟩ he
  have ho : o.TokenStep := h _ he
  cases o with
  | soapCall s' c ep req => exact ho.elim
  | _ => rfl

theorem newContext_eq {α : Type} (f : Ptr Soap → Prog α) :
    (soapAssertAssign .debug (onvifSoapNew .debug soapSockTimeout) >>= f) =
      .op .soapNew fun p => if p then f (some freshSoap) else .stop .assertion := by
  simp only [soapAssertAssign, onvifSoapNew, perform, op_bind, pure_eq, ret_bind]
  congr 1
  funext p
  cases p <;> rfl

theorem newContext_runs {α : Type} {f : Ptr Soap → Prog α} {t : Trace} {r : Outcome α} :
    Runs (soapAssertAssign .debug (onvifSoapNew .debug soapSockTimeout) >>= f) t r ↔
      (t = [⟨.soapNew, false⟩] ∧ r = .error .assertion) ∨
        ∃ t', t = ⟨.soapNew, true⟩ :: t' ∧ Runs (f (some freshSoap)) t' r := by
  rw [newContext_eq, runs_op]
  constructor
  · rintro ⟨p, t', rfl, h⟩
    cases p with
    | false =>
      obtain ⟨rfl, rfl⟩ := runs_stop.mp h
      exact .inl ⟨rfl, rfl⟩
    | true => exact .inr ⟨t', rfl, h⟩
  · rintro (⟨rfl, rfl⟩ | ⟨t', rfl, h⟩)
    · exact ⟨false, [], rfl, .stop _⟩
    · exact ⟨true, t', rfl, h⟩

@[simp] theorem soapExit_runs {α : Type} {c : Soap} {a : α} {t : Trace} {r : Outcome α} :
    Runs (soapExit (some c) a) t r ↔ t = [⟨.soapDelete, ()⟩] ∧ r = .ok a := by
  have hp : soapExit (some c) a = .op .soapDelete fun _ => .ret a := rfl
  rw [hp, runs_op]
  constructor
  · rintro ⟨⟨⟩, t', rfl, h⟩
    obtain ⟨rfl, rfl⟩ := runs_ret.mp h
    exact ⟨rfl, rfl⟩
  · rintro ⟨rfl, rfl⟩
    exact ⟨(), [], rfl, .ret a⟩

theorem onvifSetAuthInfo_some {b : Build} {c : Soap} {username password : Ptr CStr} {t : Trace}
    {n : ℤ} {soap : Ptr Soap}
    (h : Runs (onvifSetAuthInfo b (some c) username password) t (.ok (n, soap))) :
    ∃ c', soap = some c' := by
  have hm : Meets (S := gsoap) (fun _ _ => True) (fun _ => True)
      (fun r => ∀ a, r = .ok a → ∃ c', a.2 = some c') (onvifSetAuthInfo b (some c) username password) := by
    apply (soapAssert_keepsTo b _).bind_any
    · intro _
      apply (soapAssert_keepsTo b _).bind_any
      · intro _
        apply ((soapWsseAddUsernameTokenDigest_tokenStep c none username password).mono
          (fun _ _ => trivial)).bind_any
        · rintro ⟨result, soap⟩ a ha
          exact ⟨soap, by cases ha; rfl⟩
        · simp
      · simp
    · simp
  exact (hm.runs h (fun _ _ => trivial)).2 _ rfl

theorem request_runs {b : Build} {s : Service} {c : Soap} {ep : Ptr CStr} {req : s.Req}
    {username password : Ptr CStr} {α : Type} {f : ℤ × Ptr Soap × s.Rep → Prog α} {t : Trace}
    {r : Outcome α} (h : Runs (request b s (some c) ep req username password >>= f) t r) :
    (∃ e, Runs (onvifSetAuthInfo b (some c) username password) t (.error e) ∧ r = .error e) ∨
      ∃ n c' x t₁ t₂, Runs (onvifSetAuthInfo b (some c) username password) t₁ (.ok (n, some c')) ∧
        t = t₁ ++ ⟨.soapCall s (soapBegin c') ep req, x⟩ :: t₂ ∧
        Runs (f ((x.reply s.zero).status, some ((soapBegin c').received (x.reply s.zero)),
          (x.reply s.zero).rep)) t₂ r := by
  rw [request, bind_assoc, runs_bind] at h
  rcases h with ⟨e, h, rfl⟩ | ⟨⟨n, soap⟩, t₁, t₂, rfl, h₁, h₂⟩
  · exact .inl ⟨e, h, rfl⟩
  · obtain ⟨c', rfl⟩ := onvifSetAuthInfo_some h₁
    have h₂ : Runs (soapCall s (some c') ep req >>= f) t₂ r := h₂
    obtain ⟨x, t₃, rfl, h₃⟩ := runs_op.mp h₂
    exact .inr ⟨n, c', x, t₁, t₃, h₁, rfl, h₃⟩

theorem service_outcome {s : Service} {ep : Ptr CStr} {req : s.Req} {username password : Ptr CStr}
    {α : Type} {f : ℤ × Ptr Soap × s.Rep → Prog α} {t : Trace} {r : Outcome α}
    (h : Runs (soapAssertAssign .debug (onvifSoapNew .debug soapSockTimeout) >>= fun soap =>
      request .debug s soap ep req username password >>= f) t r) :
    ((∃ e, r = .error e) ∧ ∀ s', exchanges s' t = []) ∨
      ∃ c x t', (∀ s', exchanges s' t = exchange s' ⟨.soapCall s c ep req, x⟩ ++ exchanges s' t') ∧
        t' ⊆ t ∧ Runs (f ((x.reply s.zero).status, some (c.received (x.reply s.zero)),
          (x.reply s.zero).rep)) t' r := by
  rcases newContext_runs.mp h with ⟨rfl, rfl⟩ | ⟨t, rfl, hc⟩
  · exact .inl ⟨⟨_, rfl⟩, fun _ => rfl⟩
  rcases request_runs hc with ⟨e, h₁, rfl⟩ | ⟨_, c, x, t₁, t₂, h₁, rfl, h₂⟩
  · refine .inl ⟨⟨e, rfl⟩, fun s' => ?_⟩
    rw [exchanges_cons, exchanges_tokenSteps s' ((onvifSetAuthInfo_tokenStep _ _ _ _).runs h₁)]
    rfl
  refine .inr ⟨soapBegin c, x, t₂, ?_, ?_, h₂⟩
  · intro s'
    have hauth := exchanges_tokenSteps s' ((onvifSetAuthInfo_tokenStep _ _ _ _).runs h₁)
    rw [exchanges_cons, exchanges_append, exchanges_cons, hauth]
    rfl
  · intro e he
    simp [he]

theorem service_runs {s : Service} {ep : Ptr CStr} {req : s.Req} {username password : Ptr CStr}
    {α : Type} {f : ℤ × Ptr Soap × s.Rep → Prog α} {t : Trace} {a : α}
    (h : Runs (soapAssertAssign .debug (onvifSoapNew .debug soapSockTimeout) >>= fun soap =>
      request .debug s soap ep req username password >>= f) t (.ok a)) :
    ∃ c x t', (∀ s', exchanges s' t = exchange s' ⟨.soapCall s c ep req, x⟩ ++ exchanges s' t') ∧
      t' ⊆ t ∧ Runs (f ((x.reply s.zero).status, some (c.received (x.reply s.zero)),
        (x.reply s.zero).rep)) t' (.ok a) := by
  rcases service_outcome h with ⟨⟨e, hr⟩, _⟩ | h
  · cases hr
  · exact h

end OnvifSdk
