import OnvifSdk.Requests
import OnvifSdk.Host

namespace OnvifSdk.ProfileCount

open Lib Program Gsoap

/-- A decoded string in a token field: as much of it as leaves room for the terminator, and zero
bytes up to the end of the field. -/
def tokenField (s : Ptr CStr) : List UInt8 := filled ((s.elim [] (·.bytes)).take 64) onvifTokenSize

structure Projects (ttProfile : TtProfile) (plst : TagProfile) : Prop where
  token : plst.token.bytes = tokenField ttProfile.token
  encoderToken : plst.venc.token.bytes =
    tokenField (ttProfile.videoEncoderConfiguration.bind (·.token))
  resolution : ∀ r, ttProfile.videoEncoderConfiguration.bind (·.resolution) = some r →
    plst.venc.width = r.width ∧ plst.venc.height = r.height
  noResolution : ttProfile.videoEncoderConfiguration.bind (·.resolution) = none →
    plst.venc.width = 0 ∧ plst.venc.height = 0

structure Agree (rep : TrtGetProfilesResponse) (t : Trace) (n : ℤ) (before profiles : Ptr (List TagProfile)) :
    Prop where
  array : n > 0 → ∃ ps, profiles = some ps ∧ ⟨.mallocTagProfiles ps.length, true⟩ ∈ t ∧
    (ps.length : ℤ) = n ∧ List.Forall₂ Projects rep.profiles.elems ps
  unchanged : n ≤ 0 → profiles = before

theorem Agree.mono {rep : TrtGetProfilesResponse} {t t' : Trace} {n : ℤ}
    {before profiles : Ptr (List TagProfile)} (h : Agree rep t n before profiles) (ht : t ⊆ t') :
    Agree rep t' n before profiles where
  array hn := by
    obtain ⟨ps, hp, hm, hl, hf⟩ := h.array hn
    exact ⟨ps, hp, ht hm, hl, hf⟩
  unchanged := h.unchanged

theorem copied_bytes (s : Ptr CStr) : (copied 64 s).bytes = tokenField s := by
  cases s with
  | none => simp [copied, CharArray.zero, tokenField, filled, onvifTokenSize]
  | some s => exact CharArray.strncpy_zero_bytes s

theorem tagProfile_projects (ttProfile : TtProfile) : Projects ttProfile (tagProfile ttProfile) where
  token := copied_bytes _
  encoderToken := copied_bytes _
  resolution r hr := by simp [tagProfile, tagVideoEncoderConfiguration, hr]
  noResolution hr := by simp [tagProfile, tagVideoEncoderConfiguration, hr]

theorem newProfiles_agree {rep : TrtGetProfilesResponse} {t : Trace} {before : Ptr (List TagProfile)}
    {out : Ptr (Ptr (List TagProfile))}
    (h : Runs (newProfiles .debug rep (some before)) t (.ok out)) :
    ∃ profiles, out = some profiles ∧ Agree rep t rep.sizeProfiles before profiles ∧
      exchanges .getProfiles t = [] := by
  unfold newProfiles at h
  split_ifs at h with hn
  · simp only [deref_some, ret_bind, perform, op_bind] at h
    obtain ⟨found, t, rfl, hf⟩ := runs_op.mp h
    cases found with
    | false => cases (runs_stop.mp hf).2
    | true =>
      obtain ⟨rfl, ho⟩ := runs_ret.mp hf
      obtain rfl := Except.ok.inj ho
      have hfill : List.Forall₂ Projects rep.profiles.elems (rep.profiles.elems.map tagProfile) := by
        rw [List.forall₂_map_right_iff, List.forall₂_same]
        exact fun p _ => tagProfile_projects p
      refine ⟨_, rfl, ⟨fun _ => ⟨_, rfl, ?_, ?_, hfill⟩, fun hz => absurd hz (by omega)⟩, rfl⟩
      · rw [List.length_map]
        exact List.mem_singleton_self _
      · rw [List.length_map]
        rfl
  · obtain ⟨rfl, ho⟩ := runs_ret.mp h
    obtain rfl := Except.ok.inj ho
    exact ⟨before, rfl, ⟨fun hp => absurd hp hn, fun _ => rfl⟩, rfl⟩

theorem onvifGetProfiles_runs {ep username password : Ptr CStr} {t : Trace} {n : ℤ}
    {before : Ptr (List TagProfile)} {out : Ptr (Ptr (List TagProfile))}
    (h : Runs (onvifGetProfiles .debug ep (some before) username password) t (.ok (n, out))) :
    ∃ (x : Exchange TrtGetProfilesResponse) (profiles : Ptr (List TagProfile)),
      exchanges .getProfiles t = [({}, x)] ∧ n = (x.reply {}).rep.sizeProfiles ∧
      out = some profiles ∧ ((x.Accepted ∧ Agree (x.reply {}).rep t n before profiles) ∨
        (¬ x.Accepted ∧ profiles = before)) := by
  cases ep with
  | none => cases (runs_stop.mp h).2
  | some ep =>
    obtain ⟨c, x, t₂, ht, hsub, h₂⟩ := service_runs h
    have hx (h' : exchanges .getProfiles t₂ = []) : exchanges .getProfiles t = [({}, x)] := by
      rw [ht, exchange_same, h']
      rfl
    by_cases ha : x.Accepted
    · have hf := Exchange.failure_of_accepted ha (Service.zero .getProfiles)
      simp only [soapCheckError_received, hf, ret_bind,
        runDump_of_ends (dumpTrtGetProfilesResponse_prints _).ends] at h₂
      obtain ⟨profiles, t₃, t₄, rfl, h₃, h₄⟩ := h₂.of_bind
      obtain ⟨rfl, hr⟩ := soapExit_runs.mp h₄
      cases hr
      obtain ⟨profiles, rfl, hagree, hx'⟩ := newProfiles_agree h₃
      refine ⟨x, profiles, hx ?_, rfl, rfl, .inl ⟨ha, hagree.mono ?_⟩⟩
      · rw [exchanges_append, hx']
        rfl
      · intro e he
        exact hsub (List.mem_append_left _ he)
    · obtain ⟨e, hf, _⟩ := Exchange.failure_of_not_accepted ha (Service.zero .getProfiles)
      simp only [soapCheckError_received, hf, ret_bind] at h₂
      obtain ⟨rfl, hr⟩ := soapExit_runs.mp h₂
      cases hr
      exact ⟨x, before, hx rfl, rfl, rfl, .inr ⟨ha, rfl⟩⟩

/-- The count and the array agree exactly when the call succeeded or had decoded no profile before
it failed. -/
theorem onvifGetProfiles_agree_iff {ep username password : Ptr CStr} {t : Trace} {n : ℤ}
    {out : Ptr (Ptr (List TagProfile))}
    (h : Runs (onvifGetProfiles .debug ep (some none) username password) t (.ok (n, out))) :
    ∃ (x : Exchange TrtGetProfilesResponse) (profiles : Ptr (List TagProfile)),
      exchanges .getProfiles t = [({}, x)] ∧ out = some profiles ∧
      (Agree (x.reply {}).rep t n none profiles ↔
        x.Accepted ∨ (x.reply {}).rep.profiles.elems = []) := by
  obtain ⟨x, profiles, ht, hn, hp, hcases⟩ := onvifGetProfiles_runs h
  refine ⟨x, profiles, ht, hp, ?_⟩
  have hsize : n = ((x.reply {}).rep.profiles.elems.length : ℤ) := hn
  rcases hcases with ⟨ha, hagree⟩ | ⟨ha, rfl⟩
  · exact ⟨fun _ => .inl ha, fun _ => hagree⟩
  · constructor
    · intro hagree
      right
      by_contra hne
      have hpos := List.length_pos_iff.mpr hne
      obtain ⟨ps, hps, _⟩ := hagree.array (by omega)
      cases hps
    · rintro (ha' | hnil)
      · exact absurd ha' ha
      · rw [hnil] at hsize
        exact ⟨fun hp => absurd hp (by simp [hsize]), fun _ => rfl⟩

def oneProfile (status error : ℤ) (s : Service) (_ : Soap) (_ : Ptr CStr) (_ : s.Req) : Exchange s.Rep :=
  match s with
  | .getProfiles => .sent ⟨status, error, none, ⟨⟨[{ token := some (.lit "Profile_1") }], by simp⟩⟩⟩
  | s => unreachable s

def oneProfileRun (status error : ℤ) : Trace × Outcome (ℤ × Ptr (Ptr (List TagProfile))) :=
  onHost (oneProfile status error) [] (onvifGetProfiles .debug media (some none) (some admin) (some admin))

theorem oneProfileRun_runs (status error : ℤ) :
    Runs (onvifGetProfiles .debug media (some none) (some admin) (some admin)) (oneProfileRun status error).1
      (oneProfileRun status error).2 := onHost_runs _ _ _

theorem onvifGetProfiles_count_without_array :
    ∃ t, Runs (onvifGetProfiles .debug media (some none) (some admin) (some admin)) t (.ok (1, some none)) ∧
      ∃ x, exchanges .getProfiles t = [({}, x)] ∧ ¬ Agree (x.reply {}).rep t 1 none none := by
  refine ⟨_, oneProfileRun_runs soapSyntaxError soapSyntaxError, _, rfl, ?_⟩
  intro hagree
  obtain ⟨ps, hps, _⟩ := hagree.array (by decide)
  cases hps

theorem onvifGetProfiles_agree_on_one_profile :
    ∃ t out, Runs (onvifGetProfiles .debug media (some none) (some admin) (some admin)) t (.ok (1, out)) ∧
      ∃ x profiles, exchanges .getProfiles t = [({}, x)] ∧ out = some profiles ∧
        (Agree (x.reply {}).rep t 1 none profiles ↔
          x.Accepted ∨ (x.reply {}).rep.profiles.elems = []) :=
  ⟨_, _, oneProfileRun_runs soapOk soapOk, onvifGetProfiles_agree_iff (oneProfileRun_runs soapOk soapOk)⟩

end OnvifSdk.ProfileCount
