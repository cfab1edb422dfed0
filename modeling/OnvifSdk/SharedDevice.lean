import OnvifSdk.Lib.Clients
import OnvifSdk.Requests

namespace OnvifSdk.SharedDevice

open Lib Program Gsoap

structure Call where
  mediaXAddr : Ptr CStr
  venc : Ptr TagVideoEncoderConfiguration
  username : Ptr CStr
  password : Ptr CStr

def Call.program (c : Call) : Prog ℤ :=
  onvifSetVideoEncoderConfiguration .debug c.mediaXAddr c.venc c.username c.password

abbrev Store := CStr → Option TtVideoEncoderConfiguration

/-- A device, with the Set messages it has accepted and the calls they came from. -/
structure Device where
  store : Store
  accepted : List (Call × TrtSetVideoEncoderConfiguration)

def Device.take (d : Device) (c : Call) (tok : CStr) (cfg : TtVideoEncoderConfiguration)
    (persist : Bool) : Device where
  store := Function.update d.store tok (some cfg)
  accepted := d.accepted ++ [(c, ⟨some cfg, persist⟩)]

@[simp] theorem Device.take_store_self (d : Device) (c : Call) (tok : CStr)
    (cfg : TtVideoEncoderConfiguration) (persist : Bool) :
    (d.take c tok cfg persist).store tok = some cfg := Function.update_self ..

theorem Device.take_store_of_ne {d : Device} {c : Call} {tok tok' : CStr}
    {cfg : TtVideoEncoderConfiguration} {persist : Bool} (h : tok' ≠ tok) :
    (d.take c tok cfg persist).store tok' = d.store tok' := Function.update_of_ne h ..

def IsRequest : Op → Prop
  | .soapCall _ _ _ _ => True
  | _ => False

def Lost : (o : Op) → o.Ans → Prop
  | .soapCall _ _ _ _, x => ¬ Exchange.Accepted x
  | _, _ => False

inductive Handles (c : Call) : Device → (o : Op) → o.Ans → Device → Prop
  | get {d : Device} {soap : Soap} {ep : Ptr CStr} {tok : CStr}
      {x : Exchange TrtGetVideoEncoderConfigurationResponse}
      (h : x.Accepted → (x.reply {}).rep.configuration = d.store tok) :
      Handles c d (.soapCall .getVideoEncoderConfiguration soap ep ⟨some tok⟩) x d
  | accept {d : Device} {soap : Soap} {ep : Ptr CStr} {cfg : TtVideoEncoderConfiguration} {tok : CStr}
      {persist : Bool} {x : Exchange TrtSetVideoEncoderConfigurationResponse}
      (ht : cfg.token = some tok) (h : x.Accepted) :
      Handles c d (.soapCall .setVideoEncoderConfiguration soap ep ⟨some cfg, persist⟩) x
        (d.take c tok cfg persist)
  | reject {d : Device} {s : Service} {soap : Soap} {ep : Ptr CStr} {req : s.Req} {x : Exchange s.Rep}
      (h : ¬ x.Accepted) : Handles c d (.soapCall s soap ep req) x d

def system : Clients.System gsoap Call ℤ Device where
  program := Call.program
  Remote := IsRequest
  handle := Handles
  lost := Lost

structure Initial where
  store : Store
  own_token : ∀ {tok cfg}, store tok = some cfg → cfg.token = some tok
  has_resolution : ∀ {tok cfg}, store tok = some cfg → cfg.resolution ≠ none

structure Copy (init : Initial) (tok : CStr) (cfg : TtVideoEncoderConfiguration) : Prop where
  others : ∃ cfg₀, init.store tok = some cfg₀ ∧ { cfg with resolution := cfg₀.resolution } = cfg₀
  resolution : cfg.resolution ≠ none

theorem Copy.token {init : Initial} {tok : CStr} {cfg : TtVideoEncoderConfiguration}
    (h : Copy init tok cfg) : cfg.token = some tok := by
  obtain ⟨cfg₀, h₀, hcfg⟩ := h.others
  have ht := congrArg TtVideoEncoderConfiguration.token hcfg
  exact ht.trans (init.own_token h₀)

theorem Copy.eq_of_resolution {init : Initial} {tok : CStr} {cfg cfg' : TtVideoEncoderConfiguration}
    (h : Copy init tok cfg) (h' : Copy init tok cfg') :
    cfg = { cfg' with resolution := cfg.resolution } := by
  obtain ⟨cfg₀, h₀, hcfg⟩ := h.others
  obtain ⟨cfg₁, h₁, hcfg'⟩ := h'.others
  obtain rfl : cfg₀ = cfg₁ := Option.some.inj (h₀.symm.trans h₁)
  have heq : { cfg with resolution := cfg₀.resolution } = { cfg' with resolution := cfg₀.resolution } :=
    hcfg.trans hcfg'.symm
  have := congrArg (fun x : TtVideoEncoderConfiguration => { x with resolution := cfg.resolution }) heq
  exact this

structure Asks (init : Initial) (c : Call) (venc : TagVideoEncoderConfiguration)
    (cfg : TtVideoEncoderConfiguration) : Prop where
  call : ∃ ep u p, c = ⟨some ep, some venc, some u, some p⟩
  copy : Copy init venc.token.str cfg
  resolution : cfg.resolution = some ⟨venc.width, venc.height⟩

def rely (init : Initial) : (o : Op) → o.Ans → Prop
  | .soapCall .getVideoEncoderConfiguration _ _ req, x => Exchange.Accepted x →
    ∀ cfg, (Exchange.reply {} x).rep.configuration = some cfg →
      ∃ tok, req.configurationToken = some tok ∧ Copy init tok cfg
  | _, _ => True

def guar (init : Initial) (c : Call) : Op → Prop
  | .soapCall .setVideoEncoderConfiguration _ _ req =>
    ∃ venc cfg, req = ⟨some cfg, true⟩ ∧ Asks init c venc cfg
  | _ => True

section Client

variable {init : Initial} {c : Call}

theorem guar_of_tokenStep {o : Op} (h : o.TokenStep) : guar init c o := by
  cases o with
  | soapCall s soap ep req => exact h.elim
  | _ => trivial

theorem keepsTo_meets {α : Type} {p : Prog α} (h : KeepsTo (fun o => ¬ IsRequest o) p) :
    p.Meets (rely init) (guar init c) (fun _ => True) := by
  apply h.meets
  intro o ho
  cases o with
  | soapCall s soap ep req => exact absurd trivial ho
  | _ => trivial

theorem request_meets {s : Service} {soap : Soap} {ep : Ptr CStr} {req : s.Req} {u p : Ptr CStr}
    {α : Type} {f : ℤ × Ptr Soap × s.Rep → Prog α}
    (hcall : ∀ soap, guar init c (.soapCall s soap ep req))
    (hf : ∀ soap x, rely init (.soapCall s soap ep req) x →
      (f ((x.reply s.zero).status, some (soap.received (x.reply s.zero)),
        (x.reply s.zero).rep)).Meets (rely init) (guar init c) (fun _ => True)) :
    (request .debug s (some soap) ep req u p >>= f).Meets (rely init) (guar init c)
      (fun _ => True) := by
  rw [request, bind_assoc]
  apply Meets.bind_any
  · exact (onvifSetAuthInfo_tokenStep .debug (some soap) u p).meets fun _ ho => guar_of_tokenStep ho
  · rintro ⟨n, _ | soap⟩
    · trivial
    · exact ⟨hcall _, fun x hx => hf _ x hx⟩
  · exact fun _ => trivial

theorem soapExit_meets {α : Type} (soap : Ptr Soap) (a : α) :
    (soapExit soap a).Meets (rely init) (guar init c) (fun _ => True) :=
  keepsTo_meets (soapExit_keepsTo (fun h => h.elim) soap a)

theorem Copy.setResolution_eq {tok : CStr} {cfg : TtVideoEncoderConfiguration} (h : Copy init tok cfg)
    (venc : TagVideoEncoderConfiguration) :
    setResolution venc cfg = { cfg with resolution := some ⟨venc.width, venc.height⟩ } := by
  unfold setResolution
  cases hr : cfg.resolution with
  | none => exact absurd hr h.resolution
  | some r => rfl

theorem Copy.withResolution {tok : CStr} {cfg : TtVideoEncoderConfiguration} (h : Copy init tok cfg)
    (r : TtVideoResolution) : Copy init tok { cfg with resolution := some r } := by
  obtain ⟨cfg₀, h₀, hcfg⟩ := h.others
  exact ⟨⟨cfg₀, h₀, hcfg⟩, nofun⟩

theorem Call.program_meets (init : Initial) (c : Call) :
    c.program.Meets (rely init) (guar init c) (fun _ => True) := by
  rcases c with ⟨ep, venc, u, p⟩
  rcases ep with _ | ep
  · trivial
  rcases venc with _ | venc
  · trivial
  simp only [Call.program, onvifSetVideoEncoderConfiguration, soapAssert_some, ret_bind, deref_some,
    newContext_eq]
  refine ⟨trivial, fun found _ => ?_⟩
  rcases found with _ | _
  · trivial
  rcases u with _ | u
  · trivial
  rcases p with _ | p
  · trivial
  apply request_meets
  · exact fun _ => trivial
  intro soap x hx
  simp only [soapCheckError_received, ret_bind]
  cases hf : (x.reply (Service.zero .getVideoEncoderConfiguration)).failure with
  | some n => exact soapExit_meets _ _
  | none =>
    have ha : x.Accepted := by
      by_contra hn
      obtain ⟨n, hn', _⟩ := Exchange.failure_of_not_accepted hn
        (Service.zero .getVideoEncoderConfiguration)
      rw [hf] at hn'
      cases hn'
    cases hcfg : (x.reply (Service.zero .getVideoEncoderConfiguration)).rep.configuration with
    | none => exact soapExit_meets _ _
    | some cfg =>
      obtain ⟨tok, htok, hcopy⟩ := hx ha cfg hcfg
      obtain rfl : venc.token.str = tok := Option.some.inj htok
      apply request_meets
      · intro soap
        refine ⟨venc, _, rfl, ⟨ep, u, p, rfl⟩, ?_, ?_⟩
        · rw [hcopy.setResolution_eq venc]
          exact hcopy.withResolution _
        · rw [hcopy.setResolution_eq venc]
      · intro soap y _
        simp only [soapCheckError_received, ret_bind]
        exact soapExit_meets _ _

end Client

end OnvifSdk.SharedDevice
