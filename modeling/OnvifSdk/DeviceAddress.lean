import OnvifSdk.Detection

namespace OnvifSdk.DeviceAddress

open Lib Program Gsoap Detection

def isSpace (b : UInt8) : Bool := b = 32 ∨ b = 9 ∨ b = 10 ∨ b = 13

def uris (s : CStr) : List (List UInt8) := (s.bytes.splitOnP isSpace).filter (· ≠ [])

theorem splitOnP_spaceless {s u : List UInt8} (h : u ∈ s.splitOnP isSpace) : ∀ b ∈ u, isSpace b = false := by
  induction s generalizing u with
  | nil =>
    rw [List.splitOnP_nil, List.mem_singleton] at h
    simp [h]
  | cons c s ih =>
    rw [List.splitOnP_cons_eq_if_modifyHead] at h
    split_ifs at h with hc
    · rcases List.mem_cons.mp h with rfl | h
      · simp
      · exact ih h
    · obtain ⟨v, vs, hs⟩ := List.exists_cons_of_ne_nil (List.splitOnP_ne_nil isSpace s)
      rw [hs, List.modifyHead_cons] at h
      rcases List.mem_cons.mp h with rfl | h
      · intro b hb
        rcases List.mem_cons.mp hb with rfl | hb
        · simpa using hc
        · exact ih (hs ▸ List.mem_cons_self) b hb
      · exact ih (hs ▸ List.mem_cons_of_mem v h)

def Single (s : CStr) : Prop := s.bytes ≠ [] ∧ ∀ b ∈ s.bytes, isSpace b = false

instance (s : CStr) : Decidable (Single s) := inferInstanceAs (Decidable (_ ∧ _))

theorem single_of_mem_uris {a s : CStr} (h : a.bytes ∈ uris s) : Single a := by
  obtain ⟨hm, hne⟩ := List.mem_filter.mp h
  exact ⟨by simpa using hne, splitOnP_spaceless hm⟩

theorem mem_uris_self_iff {s : CStr} : s.bytes ∈ uris s ↔ Single s := by
  constructor
  · exact single_of_mem_uris
  · rintro ⟨hne, hs⟩
    apply List.mem_filter.mpr
    rw [List.splitOnP_eq_singleton hs]
    simpa using hne

section Callers

def Dials (good : Ptr CStr → Prop) : Op → Prop
  | .soapCall _ _ ep _ => good ep
  | _ => True

theorem Dials.mono {good good' : Ptr CStr → Prop} {o : Op} (h : Dials good o)
    (hg : ∀ ep, good ep → good' ep) : Dials good' o := by
  cases o with
  | soapCall s c ep req => exact hg ep h
  | _ => trivial

theorem request_dials (b : Build) (s : Service) (soap ep : _) (req : s.Req) (username password : Ptr CStr) :
    KeepsTo (Dials (· = ep)) (request b s soap ep req username password) := by
  apply ((onvifSetAuthInfo_tokenStep b soap username password).mono _).bind
  · rintro ⟨_, soap⟩
    cases soap with
    | none => trivial
    | some c => exact ⟨rfl, fun _ _ => trivial⟩
  · intro o ho
    cases o <;> first | exact ho.elim | trivial

theorem onvifGetCapabilities_dials (ep : Ptr CStr) (capa : Ptr TagCapabilities)
    (username password : Ptr CStr) :
    KeepsTo (Dials (· = ep)) (onvifGetCapabilities .debug ep capa username password) := by
  have hnew : KeepsTo (Dials (· = ep)) (soapAssertAssign .debug (onvifSoapNew .debug soapSockTimeout)) := by
    refine ⟨trivial, fun p _ => ?_⟩
    cases p <;> trivial
  apply (soapAssert_keepsTo _ _).bind
  intro _
  apply (soapAssert_keepsTo _ _).bind
  intro _
  apply hnew.bind
  intro soap
  apply (request_dials _ _ _ _ _ _ _).bind
  rintro ⟨result, soap, rep⟩
  apply (soapCheckError_keepsTo result soap).bind
  intro failed
  cases failed with
  | some n => exact soapExit_keepsTo trivial soap _
  | none =>
    apply (runDump_keepsTo _).bind
    intro _
    apply (deref_keepsTo capa).bind
    intro _
    exact soapExit_keepsTo trivial soap _

end Callers

/-- A callback may pass the address on: the assertion of `ONVIF_GetCapabilities` holds, which the
start of a context shows, and what it dials is one URI. -/
def Usable (address : Ptr CStr) : Prop :=
  ∀ (capa : TagCapabilities) (username password : Ptr CStr) (t : Trace) (r : _),
    Runs (onvifGetCapabilities .debug address (some capa) username password) t r →
      (∃ x, ⟨.soapNew, x⟩ ∈ t) ∧ ∀ e ∈ t, Dials (fun ep => ∃ a, ep = some a ∧ Single a) e.1

structure HandsOutUris (t : Trace) : Prop where
  uri : ∀ m ∈ delivered t, ∃ a, m.xAddrs = some a ∧
    ∃ m' ∈ (received t).flatMap found, ∃ s, m'.xAddrs = some s ∧ a.bytes ∈ uris s
  usable : ∀ m ∈ delivered t, Usable m.xAddrs

theorem usable_of_single {a : CStr} (ha : Single a) : Usable (some a) := by
  intro capa username password t r h
  constructor
  · rcases newContext_runs.mp h with ⟨rfl, _⟩ | ⟨t', rfl, _⟩
    · exact ⟨false, List.mem_cons_self⟩
    · exact ⟨true, List.mem_cons_self⟩
  · intro e he
    apply ((onvifGetCapabilities_dials _ _ _ _).runs h e he).mono
    rintro _ rfl
    exact ⟨a, rfl, ha⟩

/-- Only addresses that can be used are handed out exactly when every match of the replies read
lists one URI. -/
theorem onvifDetectDevice_hands_out_uris_iff {fuel : ℕ} {t : Trace} {r : Outcome Unit}
    (h : Runs (onvifDetectDevice .debug fuel true) t r) :
    HandsOutUris t ↔ ∀ m ∈ (received t).flatMap found, ∃ s, m.xAddrs = some s ∧ Single s := by
  have hd : delivered t = (received t).flatMap found := by
    rcases onvifDetectDevice_runs h with ⟨_, hx, hd, _⟩ | ⟨_, _, _, _, hd, _⟩
    · rw [hx, hd]
      rfl
    · exact hd
  rw [← hd]
  constructor
  · intro hh m hm
    obtain ⟨a, ha, m', _, s, _, hu⟩ := hh.uri m hm
    exact ⟨a, ha, single_of_mem_uris hu⟩
  · intro hs
    constructor
    · intro m hm
      obtain ⟨s, ha, hsingle⟩ := hs m hm
      exact ⟨s, ha, m, hd ▸ hm, s, ha, mem_uris_self_iff.mpr hsingle⟩
    · intro m hm
      obtain ⟨s, ha, hsingle⟩ := hs m hm
      rw [ha]
      exact usable_of_single hsingle

def endpoint : String := "urn:uuid:0a9c7a1e-3a41-4c61-a2b1-0d0f3f0a1b2c"

theorem onvifDetectDevice_hands_out_null_and_lists :
    (∃ t, Runs (onvifDetectDevice .debug 2 true) t (.ok ()) ∧ delivered t = [camera endpoint none] ∧
      Runs (onvifGetCapabilities .debug none (some (tagCapabilities {})) (some admin)
        (some admin)) [] (.error .assertion) ∧ ¬ HandsOutUris t) ∧
    ∃ t, Runs (onvifDetectDevice .debug 2 true) t (.ok ()) ∧
      delivered t = [camera endpoint (some (.lit "http://192.168.0.2 http://10.0.0.2"))] ∧
      ¬ HandsOutUris t := by
  constructor
  · refine ⟨_, detection_runs 2 [probeMatches endpoint none], rfl, .stop _, ?_⟩
    intro hh
    obtain ⟨a, ha, _⟩ := hh.uri (camera endpoint none) List.mem_cons_self
    cases ha
  · refine ⟨_, detection_runs 2 [probeMatches endpoint
    (some (.lit "http://192.168.0.2 http://10.0.0.2"))], rfl, ?_⟩
    intro hh
    obtain ⟨a, ha, _, _, _, _, hu⟩ := hh.uri
      (camera endpoint (some (.lit "http://192.168.0.2 http://10.0.0.2"))) List.mem_cons_self
    obtain rfl := Option.some.inj ha
    exact absurd (single_of_mem_uris hu) (by decide)

theorem onvifDetectDevice_hands_out_one_uri :
    ∃ t r, Runs (onvifDetectDevice .debug 2 true) t r ∧
      (HandsOutUris t ↔ ∀ m ∈ (received t).flatMap found, ∃ s, m.xAddrs = some s ∧ Single s) :=
  ⟨_, _, detection_runs 2 [probeMatches endpoint (some (.lit "http://192.168.0.2"))],
    onvifDetectDevice_hands_out_uris_iff
      (detection_runs 2 [probeMatches endpoint (some (.lit "http://192.168.0.2"))])⟩

end OnvifSdk.DeviceAddress
