import OnvifSdk.Discovery
import OnvifSdk.Requests
import OnvifSdk.Host

namespace OnvifSdk.Assertions

open Lib Program Gsoap

inductive PublicCall
  | soapMalloc (soap : Ptr Soap) (n : Size)
  | soapNew (timeout : ℤ)
  | soapDelete (soap : Ptr Soap)
  | setAuthInfo (soap : Ptr Soap) (username password : Ptr CStr)
  | makeUriWithAuth (srcUri username password : Ptr CStr) (destUri : Ptr (List UInt8)) (sizeDestUri : UInt32)
  | initHeader (soap : Ptr Soap)
  | initProbeType (soap : Ptr Soap)
  | detectDevice (fuel : ℕ) (cb : Bool)
  | getCapabilities (deviceXAddr : Ptr CStr) (capa : Ptr TagCapabilities) (username password : Ptr CStr)
  | getProfiles (mediaXAddr : Ptr CStr) (profiles : Ptr (Ptr (List TagProfile)))
      (username password : Ptr CStr)
  | releaseProfiles (profiles : Ptr (List TagProfile))
  | getStreamUri (mediaXAddr profileToken : Ptr CStr) (uri : Ptr (List UInt8)) (sizeuri : UInt32)
      (username password : Ptr CStr)
  | getSnapshotUri (mediaXAddr profileToken : Ptr CStr) (uri : Ptr (List UInt8)) (sizeuri : UInt32)
      (username password : Ptr CStr)
  | getVideoEncoderConfigurationOptions (mediaXAddr configurationToken username password : Ptr CStr)
  | getVideoEncoderConfiguration (mediaXAddr configurationToken username password : Ptr CStr)
  | setVideoEncoderConfiguration (mediaXAddr : Ptr CStr) (venc : Ptr TagVideoEncoderConfiguration)
      (username password : Ptr CStr)

namespace PublicCall

@[reducible] def Out : PublicCall → Type
  | soapMalloc .. => Bool × Ptr Soap
  | soapNew .. => Ptr Soap
  | soapDelete .. | detectDevice .. => Unit
  | setAuthInfo .. => ℤ × Ptr Soap
  | makeUriWithAuth .. | getStreamUri .. | getSnapshotUri .. => ℤ × List UInt8
  | initHeader .. => Ptr Soap
  | initProbeType .. => WsddProbeType × Ptr Soap
  | getCapabilities .. => ℤ × Ptr TagCapabilities
  | getProfiles .. => ℤ × Ptr (Ptr (List TagProfile))
  | releaseProfiles .. | getVideoEncoderConfigurationOptions .. | getVideoEncoderConfiguration ..
  | setVideoEncoderConfiguration .. => ℤ

def program (b : Build) : (call : PublicCall) → Prog call.Out
  | soapMalloc soap n => onvifSoapMalloc b soap n
  | soapNew timeout => onvifSoapNew b timeout
  | soapDelete soap => onvifSoapDelete soap
  | setAuthInfo soap username password => onvifSetAuthInfo b soap username password
  | makeUriWithAuth src username password dest size => onvifMakeUriWithAuth b src username password dest size
  | initHeader soap => onvifInitHeader b soap
  | initProbeType soap => onvifInitProbeType b soap
  | detectDevice fuel cb => onvifDetectDevice b fuel cb
  | getCapabilities ep capa username password => onvifGetCapabilities b ep capa username password
  | getProfiles ep profiles username password => onvifGetProfiles b ep profiles username password
  | releaseProfiles profiles => onvifReleaseProfiles profiles
  | getStreamUri ep token uri size username password =>
    onvifGetStreamUri b ep token uri size username password
  | getSnapshotUri ep token uri size username password =>
    onvifGetSnapshotUri b ep token uri size username password
  | getVideoEncoderConfigurationOptions ep token username password =>
    onvifGetVideoEncoderConfigurationOptions b ep token username password
  | getVideoEncoderConfiguration ep token username password =>
    onvifGetVideoEncoderConfiguration b ep token username password
  | setVideoEncoderConfiguration ep venc username password =>
    onvifSetVideoEncoderConfiguration b ep venc username password

def MakesContext : PublicCall → Prop
  | soapNew .. | detectDevice .. | getCapabilities .. | getProfiles .. | getStreamUri ..
  | getSnapshotUri .. | getVideoEncoderConfigurationOptions .. | getVideoEncoderConfiguration ..
  | setVideoEncoderConfiguration .. => True
  | _ => False

/-- A getter of a URI is given a size beyond its buffer, and writes past it before all else. -/
def Overruns : PublicCall → Prop
  | getStreamUri _ _ uri size _ _ | getSnapshotUri _ _ uri size _ _ =>
    ∃ m, uri = some m ∧ m.length < size.toNat
  | _ => False

end PublicCall

/-- The same calls with the same results, wherever no assertion fails. -/
abbrev SameBuilds {α : Type} (p : Build → Prog α) : Prop :=
  RefinesUpTo (S := gsoap) .assertion (p .debug) (p .ndebug)

theorem soapAssert_same (c : Bool) : SameBuilds fun b => soapAssert b c := by
  cases c with
  | false => exact refinesUpTo_stop _
  | true => exact .refl _

theorem onvifSoapMalloc_same (soap : Ptr Soap) (n : Size) : SameBuilds fun b => onvifSoapMalloc b soap n := by
  unfold SameBuilds onvifSoapMalloc
  split_ifs with hn
  · exact .refl _
  · exact (RefinesUpTo.refl _).bind fun p => (soapAssert_same p).bind fun _ => .refl _

theorem onvifSetAuthInfo_same (soap : Ptr Soap) (username password : Ptr CStr) :
    SameBuilds fun b => onvifSetAuthInfo b soap username password :=
  (soapAssert_same _).bind fun _ => (soapAssert_same _).bind fun _ => .refl _

theorem onvifMakeUriWithAuth_same (srcUri username password : Ptr CStr) (destUri : Ptr (List UInt8))
    (sizeDestUri : UInt32) :
    SameBuilds fun b => onvifMakeUriWithAuth b srcUri username password destUri sizeDestUri :=
  (soapAssert_same _).bind fun _ => (soapAssert_same _).bind fun _ =>
    (soapAssert_same _).bind fun _ => (soapAssert_same _).bind fun _ => .refl _

theorem onvifInitHeader_same (soap : Ptr Soap) : SameBuilds fun b => onvifInitHeader b soap := by
  apply (soapAssert_same _).bind
  intro _
  apply (onvifSoapMalloc_same _ _).bind
  rintro ⟨_, soap⟩
  apply (RefinesUpTo.refl _).bind
  intro context
  apply (RefinesUpTo.refl _).bind
  intro messageID
  apply (onvifSoapMalloc_same _ _).bind
  rintro ⟨wsaTo, soap⟩
  apply (onvifSoapMalloc_same _ _).bind
  rintro ⟨wsaAction, soap⟩
  exact .refl _

theorem onvifInitProbeType_same (soap : Ptr Soap) : SameBuilds fun b => onvifInitProbeType b soap := by
  apply (soapAssert_same _).bind
  intro _
  apply (onvifSoapMalloc_same _ _).bind
  rintro ⟨_, soap⟩
  apply (onvifSoapMalloc_same _ _).bind
  rintro ⟨item, soap⟩
  apply (onvifSoapMalloc_same _ _).bind
  rintro ⟨types, soap⟩
  exact .refl _

theorem same_of_not_makesContext {call : PublicCall} (h : ¬ call.MakesContext) :
    SameBuilds fun b => call.program b := by
  cases call with
  | soapMalloc soap n => exact onvifSoapMalloc_same soap n
  | soapDelete soap => exact .refl _
  | setAuthInfo soap username password => exact onvifSetAuthInfo_same soap username password
  | makeUriWithAuth src username password dest size =>
    exact onvifMakeUriWithAuth_same src username password dest size
  | initHeader soap => exact onvifInitHeader_same soap
  | initProbeType soap => exact onvifInitProbeType_same soap
  | releaseProfiles profiles => exact .refl _
  | _ => exact absurd trivial h

section WithoutContext

variable {ep token username password : Ptr CStr} {sizeuri : UInt32}

theorem newContext_runs_ne {α : Type} {f : Ptr Soap → Prog α} {t : Trace} {r : Outcome α}
    (h : Runs (soapAssertAssign .debug (onvifSoapNew .debug soapSockTimeout) >>= f) t r)
    (hr : r ≠ .error .assertion) : ∃ t', t = ⟨.soapNew, true⟩ :: t' := by
  rcases newContext_runs.mp h with ⟨_, hr'⟩ | ⟨t', rfl, _⟩
  · exact absurd hr' hr
  · exact ⟨t', rfl⟩

theorem soapNew_runs_ne {timeout : ℤ} {t : Trace} {r : Outcome (Ptr Soap)}
    (h : Runs (onvifSoapNew .debug timeout) t r) (hr : r ≠ .error .assertion) :
    ∃ t', t = ⟨.soapNew, true⟩ :: t' := by
  obtain ⟨p, t', rfl, h'⟩ := runs_op.mp h
  cases p with
  | false => exact absurd (runs_stop.mp h').2 hr
  | true => exact ⟨t', rfl⟩

theorem clearedBuffer_runs_ne {α : Type} {uri : List UInt8} {f : List UInt8 → Ptr Soap → Prog α}
    {t : Trace} {r : Outcome α}
    (h : Runs (lift (memset uri 0 sizeuri.toNat) >>= fun uri =>
      soapAssertAssign .debug (onvifSoapNew .debug soapSockTimeout) >>= f uri) t r)
    (hr : r ≠ .error .assertion) :
    (sizeuri.toNat ≤ uri.length ∧ ∃ t', t = ⟨.soapNew, true⟩ :: t') ∨
      (uri.length < sizeuri.toNat ∧ t = [] ∧ r = .error .memory) := by
  by_cases hs : sizeuri.toNat ≤ uri.length
  · simp only [memset_filled hs, lift_ok, ret_bind] at h
    exact .inl ⟨hs, newContext_runs_ne h hr⟩
  · have hset : memset uri 0 sizeuri.toNat = .error .memory := if_neg hs
    simp only [hset, lift_error, stop_bind] at h
    obtain ⟨rfl, rfl⟩ := runs_stop.mp h
    exact .inr ⟨Nat.lt_of_not_le hs, rfl, rfl⟩

theorem starts_with_context {call : PublicCall} (hm : call.MakesContext) {t : Trace}
    {r : Outcome call.Out} (h : Runs (call.program .debug) t r) (hr : r ≠ .error .assertion) :
    (¬ call.Overruns ∧ ∃ t', t = ⟨.soapNew, true⟩ :: t') ∨
      (call.Overruns ∧ t = [] ∧ r = .error .memory) := by
  cases call with
  | soapNew timeout => exact .inl ⟨id, soapNew_runs_ne h hr⟩
  | detectDevice fuel cb => exact .inl ⟨id, newContext_runs_ne h hr⟩
  | getCapabilities ep capa username password =>
    cases ep with
    | none => exact absurd (runs_stop.mp h).2 hr
    | some ep =>
      cases capa with
      | none => exact absurd (runs_stop.mp h).2 hr
      | some capa => exact .inl ⟨id, newContext_runs_ne h hr⟩
  | getProfiles ep profiles username password =>
    cases ep with
    | none => exact absurd (runs_stop.mp h).2 hr
    | some ep => exact .inl ⟨id, newContext_runs_ne h hr⟩
  | getStreamUri ep token uri size username password =>
    cases ep with
    | none => exact absurd (runs_stop.mp h).2 hr
    | some ep =>
      cases uri with
      | none => exact absurd (runs_stop.mp h).2 hr
      | some uri =>
        simp only [PublicCall.program, onvifGetStreamUri, soapAssert_some, ret_bind, deref_some] at h
        rcases clearedBuffer_runs_ne h hr with ⟨hle, ht⟩ | ⟨hlt, ht, hm⟩
        · refine .inl ⟨?_, ht⟩
          rintro ⟨m, hm, hlt⟩
          obtain rfl := Option.some.inj hm
          omega
        · exact .inr ⟨⟨uri, rfl, hlt⟩, ht, hm⟩
  | getSnapshotUri ep token uri size username password =>
    cases ep with
    | none => exact absurd (runs_stop.mp h).2 hr
    | some ep =>
      cases uri with
      | none => exact absurd (runs_stop.mp h).2 hr
      | some uri =>
        simp only [PublicCall.program, onvifGetSnapshotUri, soapAssert_some, ret_bind, deref_some] at h
        rcases clearedBuffer_runs_ne h hr with ⟨hle, ht⟩ | ⟨hlt, ht, hm⟩
        · refine .inl ⟨?_, ht⟩
          rintro ⟨m, hm, hlt⟩
          obtain rfl := Option.some.inj hm
          omega
        · exact .inr ⟨⟨uri, rfl, hlt⟩, ht, hm⟩
  | getVideoEncoderConfigurationOptions ep token username password =>
    cases ep with
    | none => exact absurd (runs_stop.mp h).2 hr
    | some ep => exact .inl ⟨id, newContext_runs_ne h hr⟩
  | getVideoEncoderConfiguration ep token username password =>
    cases ep with
    | none => exact absurd (runs_stop.mp h).2 hr
    | some ep => exact .inl ⟨id, newContext_runs_ne h hr⟩
  | setVideoEncoderConfiguration ep venc username password =>
    cases ep with
    | none => exact absurd (runs_stop.mp h).2 hr
    | some ep =>
      cases venc with
      | none => exact absurd (runs_stop.mp h).2 hr
      | some venc => exact .inl ⟨id, newContext_runs_ne h hr⟩
  | _ => exact hm.elim

theorem clearedBuffer_ndebug {α : Type} (uri : List UInt8) {f : List UInt8 → Ptr Soap → Prog α}
    (hf : ∀ uri, f uri none = .stop .memory) :
    (lift (memset uri 0 sizeuri.toNat) >>= fun uri =>
      soapAssertAssign .ndebug (onvifSoapNew .ndebug soapSockTimeout) >>= f uri) = .stop .memory := by
  by_cases hs : sizeuri.toNat ≤ uri.length
  · simp only [memset_filled hs, lift_ok, ret_bind]
    exact hf _
  · have hset : memset uri 0 sizeuri.toNat = .error .memory := if_neg hs
    simp only [hset, lift_error, stop_bind]

theorem getStreamUri_ndebug (uri : Ptr (List UInt8)) :
    onvifGetStreamUri .ndebug ep token uri sizeuri username password = .stop .memory := by
  cases uri with
  | none => rfl
  | some uri => exact clearedBuffer_ndebug uri fun _ => rfl

theorem getSnapshotUri_ndebug (uri : Ptr (List UInt8)) :
    onvifGetSnapshotUri .ndebug ep token uri sizeuri username password = .stop .memory := by
  cases uri with
  | none => rfl
  | some uri => exact clearedBuffer_ndebug uri fun _ => rfl

def NotNew : Op → Prop
  | .soapNew => False
  | _ => True

theorem ndebug_notNew {call : PublicCall} (hm : call.MakesContext) :
    KeepsTo NotNew (call.program .ndebug) := by
  cases call with
  | soapNew timeout => trivial
  | detectDevice fuel cb => exact ⟨trivial, fun p _ => by cases p <;> trivial⟩
  | getCapabilities ep capa username password => trivial
  | getProfiles ep profiles username password => trivial
  | getStreamUri ep token uri size username password =>
    rw [PublicCall.program, getStreamUri_ndebug]
    trivial
  | getSnapshotUri ep token uri size username password =>
    rw [PublicCall.program, getSnapshotUri_ndebug]
    trivial
  | getVideoEncoderConfigurationOptions ep token username password => trivial
  | getVideoEncoderConfiguration ep token username password => trivial
  | setVideoEncoderConfiguration ep venc username password => cases venc <;> trivial
  | _ => exact hm.elim

theorem overruns_ndebug {call : PublicCall} (h : call.Overruns) :
    Runs (call.program .ndebug) [] (.error .memory) := by
  cases call with
  | getStreamUri ep token uri size username password =>
    rw [PublicCall.program, getStreamUri_ndebug]
    exact .stop _
  | getSnapshotUri ep token uri size username password =>
    rw [PublicCall.program, getSnapshotUri_ndebug]
    exact .stop _
  | _ => exact h.elim

end WithoutContext

/-- A run in which no assertion fails is a run of the build without assertions exactly when the
function does not make a context (or leaves its buffer before it does). -/
theorem builds_agree_iff {call : PublicCall} {t : Trace} {r : Outcome call.Out}
    (h : Runs (call.program .debug) t r) (hr : r ≠ .error .assertion) :
    Runs (call.program .ndebug) t r ↔ (call.MakesContext → call.Overruns) := by
  by_cases hm : call.MakesContext
  · rcases starts_with_context hm h hr with ⟨ho, t', rfl⟩ | ⟨ho, rfl, rfl⟩
    · constructor
      · intro h'
        exact ((ndebug_notNew hm).runs h' ⟨.soapNew, true⟩ List.mem_cons_self).elim
      · intro ho'
        exact absurd (ho' hm) ho
    · exact ⟨fun _ _ => ho, fun _ => overruns_ndebug ho⟩
  · exact ⟨fun _ hm' => absurd hm' hm, fun _ => same_of_not_makesContext hm _ _ h hr⟩

def capabilities : PublicCall :=
  .getCapabilities (some (.lit "http://192.168.0.2")) (some (tagCapabilities {})) (some admin)
    (some admin)

def capabilitiesRun : Trace × Outcome (ℤ × Ptr TagCapabilities) :=
  onHost (fun s _ _ _ => .sent ⟨soapOk, soapOk, none, s.zero⟩) [] (capabilities.program .debug)

theorem capabilitiesRun_runs : Runs (capabilities.program .debug) capabilitiesRun.1 capabilitiesRun.2 :=
  onHost_runs _ _ _

theorem getCapabilities_builds_differ :
    ∃ t a, Runs (capabilities.program .debug) t (.ok a) ∧ a.1 = 0 ∧
      ¬ Runs (capabilities.program .ndebug) t (.ok a) ∧
      Runs (capabilities.program .ndebug) [] (.error .memory) := by
  refine ⟨_, _, capabilitiesRun_runs, rfl, ?_, .stop _⟩
  intro h
  cases (runs_stop.mp h).1

theorem getCapabilities_builds_agree_iff :
    ∃ t r, Runs (capabilities.program .debug) t r ∧
      (Runs (capabilities.program .ndebug) t r ↔ (capabilities.MakesContext → capabilities.Overruns)) :=
  ⟨_, _, capabilitiesRun_runs, builds_agree_iff capabilitiesRun_runs nofun⟩

end OnvifSdk.Assertions
