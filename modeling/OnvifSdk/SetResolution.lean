import OnvifSdk.Requests
import OnvifSdk.Host

namespace OnvifSdk.SetResolution

open Lib Program Gsoap

/-- One `trt:SetVideoEncoderConfiguration` went out and was accepted, and it asked for what the
device had with the resolution of `venc` in place of its own. -/
def Changed (venc : TagVideoEncoderConfiguration) (t : Trace) : Prop :=
  ∃ get x cfg set y, exchanges .getVideoEncoderConfiguration t = [(get, x)] ∧
    (x.reply {}).rep.configuration = some cfg ∧
    exchanges .setVideoEncoderConfiguration t = [(set, y)] ∧ y.Accepted ∧
    set.configuration = some { cfg with resolution := some ⟨venc.width, venc.height⟩ }

/-- What the device must not leave out: the configuration, and its resolution if it would go on to
accept it without one. -/
def Complete (t : Trace) : Prop :=
  ∀ x ∈ exchanges .getVideoEncoderConfiguration t, x.2.Accepted →
    ∃ cfg, (x.2.reply {}).rep.configuration = some cfg ∧
      ((∃ y ∈ exchanges .setVideoEncoderConfiguration t, y.2.Accepted) → cfg.resolution ≠ none)

theorem setResolution_eq_iff {venc : TagVideoEncoderConfiguration} {cfg : TtVideoEncoderConfiguration} :
    setResolution venc cfg = { cfg with resolution := some ⟨venc.width, venc.height⟩ } ↔
      cfg.resolution ≠ none := by
  unfold setResolution
  cases hr : cfg.resolution with
  | none =>
    constructor
    · intro he
      have := congrArg TtVideoEncoderConfiguration.resolution he
      rw [hr] at this
      cases this
    · intro hne
      exact absurd rfl hne
  | some r => simp

theorem onvifSetVideoEncoderConfiguration_runs {ep username password : Ptr CStr}
    {venc : TagVideoEncoderConfiguration} {t : Trace} {n : ℤ}
    (h : Runs (onvifSetVideoEncoderConfiguration .debug ep (some venc) username password) t (.ok n)) :
    ∃ x : Exchange TrtGetVideoEncoderConfigurationResponse,
      exchanges .getVideoEncoderConfiguration t = [(⟨some venc.token.str⟩, x)] ∧
      ((¬ x.Accepted ∧ exchanges .setVideoEncoderConfiguration t = [] ∧ n ≠ 0) ∨
        (x.Accepted ∧ (x.reply {}).rep.configuration = none ∧
          exchanges .setVideoEncoderConfiguration t = [] ∧ n = 0) ∨
        ∃ cfg y, x.Accepted ∧ (x.reply {}).rep.configuration = some cfg ∧
          exchanges .setVideoEncoderConfiguration t = [(⟨some (setResolution venc cfg), true⟩, y)] ∧
          (n = 0 ↔ y.Accepted)) := by
  cases ep with
  | none => cases (runs_stop.mp h).2
  | some ep =>
    obtain ⟨c, x, t₂, ht, _, h₂⟩ := service_runs h
    have hget (h' : exchanges .getVideoEncoderConfiguration t₂ = []) :
        exchanges .getVideoEncoderConfiguration t = [(⟨some venc.token.str⟩, x)] := by
      rw [ht, exchange_same, h']
      rfl
    have hset : exchanges .setVideoEncoderConfiguration t = exchanges .setVideoEncoderConfiguration t₂ := by
      rw [ht, exchange_other (by decide)]
      rfl
    refine ⟨x, ?_⟩
    by_cases ha : x.Accepted
    · have hf := Exchange.failure_of_accepted ha (Service.zero .getVideoEncoderConfiguration)
      have hs := ((x.accepted_iff (Service.zero .getVideoEncoderConfiguration)).mp ha).1
      simp only [soapCheckError_received, hf, ret_bind] at h₂
      cases hcfg : (x.reply (Service.zero .getVideoEncoderConfiguration)).rep.configuration with
      | none =>
        simp only [hcfg] at h₂
        obtain ⟨rfl, hr⟩ := soapExit_runs.mp h₂
        cases hr
        exact ⟨hget rfl, .inr (.inl ⟨ha, hcfg, hset, hs⟩)⟩
      | some cfg =>
        simp only [hcfg] at h₂
        rcases request_runs h₂ with ⟨e, _, hr⟩ | ⟨_, c', y, t₃, t₄, h₃, rfl, h₄⟩
        · cases hr
        simp only [soapCheckError_received, ret_bind] at h₄
        obtain ⟨rfl, hr⟩ := soapExit_runs.mp h₄
        cases hr
        have hauth (s : Service) : exchanges s t₃ = [] :=
          exchanges_tokenSteps s ((onvifSetAuthInfo_tokenStep _ _ _ _).runs h₃)
        refine ⟨hget ?_, .inr (.inr ⟨cfg, y, ha, hcfg, ?_, ?_⟩)⟩
        · rw [exchanges_append, exchanges_cons, exchange_other (by decide), hauth]
          rfl
        · rw [hset, exchanges_append, exchanges_cons, exchange_same, hauth]
          rfl
        · by_cases hb : y.Accepted
          · have hs' := ((y.accepted_iff (Service.zero .setVideoEncoderConfiguration)).mp hb).1
            rw [Exchange.failure_of_accepted hb]
            exact ⟨fun _ => hb, fun _ => hs'⟩
          · obtain ⟨e, hf', he⟩ := Exchange.failure_of_not_accepted hb
              (Service.zero .setVideoEncoderConfiguration)
            rw [hf']
            exact ⟨fun hn => absurd hn he, fun hb' => absurd hb' hb⟩
    · obtain ⟨e, hf, he⟩ := Exchange.failure_of_not_accepted ha
        (Service.zero .getVideoEncoderConfiguration)
      simp only [soapCheckError_received, hf, ret_bind] at h₂
      obtain ⟨rfl, hr⟩ := soapExit_runs.mp h₂
      cases hr
      exact ⟨hget rfl, .inl ⟨ha, hset, he⟩⟩

/-- A return of zero means the change was made exactly when the device left nothing out. -/
theorem onvifSetVideoEncoderConfiguration_ok_iff {ep username password : Ptr CStr}
    {venc : Ptr TagVideoEncoderConfiguration} {t : Trace} {n : ℤ}
    (h : Runs (onvifSetVideoEncoderConfiguration .debug ep venc username password) t (.ok n)) :
    ∃ v, venc = some v ∧ ((n = 0 → Changed v t) ↔ Complete t) := by
  cases venc with
  | none => cases ep <;> cases (runs_stop.mp h).2
  | some venc =>
    refine ⟨venc, rfl, ?_⟩
    obtain ⟨x, hx, ⟨ha, hs, hn⟩ | ⟨ha, hcfg, hs, hn⟩ | ⟨cfg, y, ha, hcfg, hs, hn⟩⟩ :=
      onvifSetVideoEncoderConfiguration_runs h
    · have hcomplete : Complete t := by
        intro x' hx' ha'
        rw [hx, List.mem_singleton] at hx'
        subst hx'
        exact absurd ha' ha
      exact ⟨fun _ => hcomplete, fun _ hn' => absurd hn' hn⟩
    · constructor
      · intro hc
        obtain ⟨_, _, _, _, _, _, _, hs', _⟩ := hc hn
        rw [hs] at hs'
        cases hs'
      · intro hc
        obtain ⟨cfg, hcfg', _⟩ := hc _ (hx ▸ List.mem_singleton_self _) ha
        rw [hcfg] at hcfg'
        cases hcfg'
    · constructor
      · intro hc x' hx' _
        rw [hx, List.mem_singleton] at hx'
        subst hx'
        refine ⟨cfg, hcfg, ?_⟩
        rintro ⟨y', hy', hb⟩
        rw [hs, List.mem_singleton] at hy'
        subst hy'
        obtain ⟨_, x', cfg', _, _, hx', hcfg', hs', _, hreq⟩ := hc (hn.mpr hb)
        obtain ⟨⟨⟩⟩ := List.singleton_inj.mp (hx.symm.trans hx')
        obtain ⟨⟨⟩⟩ := List.singleton_inj.mp (hs.symm.trans hs')
        obtain rfl := Option.some.inj (hcfg.symm.trans hcfg')
        exact setResolution_eq_iff.mp (Option.some.inj hreq)
      · intro hc hz
        have hb := hn.mp hz
        obtain ⟨cfg', hcfg', hres⟩ := hc _ (hx ▸ List.mem_singleton_self _) ha
        obtain rfl := Option.some.inj (hcfg.symm.trans hcfg')
        have hne := hres ⟨_, hs ▸ List.mem_singleton_self _, hb⟩
        exact ⟨_, x, cfg, _, y, hx, hcfg, hs, hb, congrArg some (setResolution_eq_iff.mpr hne)⟩

def agreeing (cfg : Ptr TtVideoEncoderConfiguration) (s : Service) (_ : Soap) (_ : Ptr CStr)
    (_ : s.Req) : Exchange s.Rep :=
  match s with
  | .getVideoEncoderConfiguration => .sent ⟨soapOk, soapOk, none, ⟨cfg⟩⟩
  | s => .sent ⟨soapOk, soapOk, none, s.zero⟩

def hd : TagVideoEncoderConfiguration := resized 1280 720

def setRun (cfg : Ptr TtVideoEncoderConfiguration) : Trace × Outcome ℤ :=
  onHost (agreeing cfg) [] (onvifSetVideoEncoderConfiguration .debug media (some hd) (some admin)
    (some admin))

theorem setRun_runs (cfg : Ptr TtVideoEncoderConfiguration) :
    Runs (onvifSetVideoEncoderConfiguration .debug media (some hd) (some admin) (some admin)) (setRun cfg).1
      (setRun cfg).2 := onHost_runs _ _ _

theorem onvifSetVideoEncoderConfiguration_unchanged :
    (∃ t, Runs (onvifSetVideoEncoderConfiguration .debug media (some hd) (some admin) (some admin)) t (.ok 0) ∧
      exchanges .setVideoEncoderConfiguration t = [] ∧ ¬ Changed hd t) ∧
    ∃ t, Runs (onvifSetVideoEncoderConfiguration .debug media (some hd) (some admin) (some admin)) t (.ok 0) ∧
      (∃ y, exchanges .setVideoEncoderConfiguration t = [(⟨some {}, true⟩, y)]) ∧ ¬ Changed hd t := by
  constructor
  · refine ⟨_, setRun_runs none, rfl, ?_⟩
    rintro ⟨_, _, _, _, _, _, _, hs, _⟩
    cases hs
  · refine ⟨_, setRun_runs (some {}), ⟨_, rfl⟩, ?_⟩
    rintro ⟨_, _, _, set, _, _, _, hs, _, hreq⟩
    have hset : (⟨some {}, true⟩ : TrtSetVideoEncoderConfiguration) = set :=
      congrArg Prod.fst (List.singleton_inj.mp hs)
    subst hset
    have hres : (some none : Ptr (Ptr TtVideoResolution)) = some (some ⟨hd.width, hd.height⟩) :=
      congrArg (Option.map TtVideoEncoderConfiguration.resolution) hreq
    cases hres

theorem onvifSetVideoEncoderConfiguration_ok_when_complete :
    ∃ t, Runs (onvifSetVideoEncoderConfiguration .debug media (some hd) (some admin) (some admin)) t (.ok 0) ∧
      ∃ v, some hd = some v ∧ (((0 : ℤ) = 0 → Changed v t) ↔ Complete t) :=
  ⟨_, setRun_runs (some { resolution := some ⟨640, 480⟩ }),
    onvifSetVideoEncoderConfiguration_ok_iff (setRun_runs (some { resolution := some ⟨640, 480⟩ }))⟩

end OnvifSdk.SetResolution
