import OnvifSdk.Host
import OnvifSdk.SharedDevice
import OnvifSdk.UsernameToken

namespace OnvifSdk.Serialisability

open Lib Program Gsoap SharedDevice UsernameToken

def granted {ρ : Type} (rep : ρ) : Reply ρ := ⟨soapOk, soapOk, none, rep⟩

theorem granted_failure {ρ : Type} (rep z : ρ) :
    ((Exchange.sent (granted rep)).reply z).failure = none := rfl

theorem granted_rep {ρ : Type} (rep z : ρ) : ((Exchange.sent (granted rep)).reply z).rep = rep := rfl

def obeyCall (c : Call) (d : Device) : (s : Service) → s.Req → Exchange s.Rep × Device
  | .getVideoEncoderConfiguration, req =>
    match req.configurationToken with
    | some tok => (.sent (granted ⟨d.store tok⟩), d)
    | none => (unreachable _, d)
  | .setVideoEncoderConfiguration, ⟨some cfg, persist⟩ =>
    match cfg.token with
    | some tok => (.sent (granted {}), d.take c tok cfg persist)
    | none => (unreachable _, d)
  | s, _ => (unreachable s, d)

def obey (c : Call) (d : Device) : (o : Op) → o.Ans × Device
  | .soapCall s _ _ req => obeyCall c d s req
  | o => ((host (fun s _ _ _ => unreachable s) [] o).1, d)

def after (d : Device) (c : Call) : Device := (exec (S := gsoap) (obey c) c.program d).2.2

theorem handles_obey {c : Call} {d : Device} {o : Op} (h : IsRequest o) :
    Handles c d o (obey c d o).1 (obey c d o).2 := by
  have hdown (s : Service) : ¬ (unreachable s).Accepted := id
  cases o with
  | soapCall s soap ep req =>
    cases s with
    | getVideoEncoderConfiguration =>
      rcases req with ⟨_ | tok⟩
      · exact .reject (hdown _)
      · exact .get fun _ => rfl
    | setVideoEncoderConfiguration =>
      rcases req with ⟨_ | cfg, persist⟩
      · exact .reject (hdown _)
      · cases ht : cfg.token with
        | none =>
          have ho : obey c d (.soapCall .setVideoEncoderConfiguration soap ep ⟨some cfg, persist⟩) =
              (unreachable _, d) := by simp only [obey, obeyCall, ht]
          rw [ho]
          exact .reject (hdown _)
        | some tok =>
          have ho : obey c d (.soapCall .setVideoEncoderConfiguration soap ep ⟨some cfg, persist⟩) =
              (.sent (granted {}), d.take c tok cfg persist) := by simp only [obey, obeyCall, ht]
          rw [ho]
          exact .accept ht ⟨rfl, rfl⟩
    | _ => exact .reject (hdown _)
  | _ => exact h.elim

theorem obey_own {c : Call} {d : Device} {o : Op} (h : ¬ IsRequest o) : (obey c d o).2 = d := by
  cases o with
  | soapCall s soap ep req => exact absurd trivial h
  | _ => rfl

theorem onvifSetAuthInfo_obey (c : Call) (d : Device) (soap : Soap) (u p : CStr) : ∃ t n soap',
    exec (S := gsoap) (obey c) (onvifSetAuthInfo .debug (some soap) (some u) (some p)) d =
      (t, .ok (n, some soap'), d) := by
  have hwhole : Whole (exec (S := gsoap) (obey c)
      (onvifSetAuthInfo .debug (some soap) (some u) (some p)) d).1 := by
    rintro ⟨o, x⟩ he hlosing
    obtain ⟨d', hx⟩ := exec_answered _ _ _ _ he
    cases o with
    | soapMalloc n =>
      obtain rfl : x = true := hx
      cases n with
      | sizeof r => cases hlosing.1
      | bytes n => exact hlosing
    | _ => exact hlosing
  rcases onvifSetAuthInfo_runs (exec_runs _ _ _) with ⟨_, hw⟩ | ⟨n, soap', hr, _⟩
  · exact absurd hwhole hw
  · refine ⟨_, n, soap', Prod.ext rfl (Prod.ext hr ?_)⟩
    apply (onvifSetAuthInfo_tokenStep .debug (some soap) (some u) (some p)).exec_state
    intro d o ho
    apply obey_own
    cases o with
    | soapCall s soap ep req => exact ho.elim
    | _ => exact id

theorem request_obey (c : Call) (d : Device) {s : Service} (soap : Soap) (ep : Ptr CStr) (req : s.Req)
    (u p : CStr) : ∃ soap' : Soap, ∀ f : ℤ × Ptr Soap × s.Rep → Prog ℤ,
    (exec (S := gsoap) (obey c) (request .debug s (some soap) ep req (some u) (some p) >>= f) d).2 =
      (exec (S := gsoap) (obey c) (f (((obeyCall c d s req).1.reply s.zero).status,
        some (soap'.received ((obeyCall c d s req).1.reply s.zero)),
        ((obeyCall c d s req).1.reply s.zero).rep)) (obeyCall c d s req).2).2 := by
  obtain ⟨t, n, soap', h⟩ := onvifSetAuthInfo_obey c d soap u p
  refine ⟨soapBegin soap', ?_⟩
  intro f
  rw [request, bind_assoc, exec_bind_ok _ h]
  rfl

theorem exec_program {ep u p : CStr} {venc : TagVideoEncoderConfiguration} {d : Device}
    {cfg : TtVideoEncoderConfiguration} (hcfg : d.store venc.token.str = some cfg)
    (ht : cfg.token = some venc.token.str) (hr : cfg.resolution ≠ none) :
    (exec (S := gsoap) (obey ⟨some ep, some venc, some u, some p⟩)
      (Call.program ⟨some ep, some venc, some u, some p⟩) d).2 = (.ok 0,
        d.take ⟨some ep, some venc, some u, some p⟩ venc.token.str
          { cfg with resolution := some ⟨venc.width, venc.height⟩ } true) := by
  set c : Call := ⟨some ep, some venc, some u, some p⟩ with hc
  obtain ⟨soap₁, hget⟩ := request_obey (s := .getVideoEncoderConfiguration) c d freshSoap (some ep)
    ⟨some venc.token.str⟩ u p
  obtain ⟨soap₂, hset⟩ := request_obey (s := .setVideoEncoderConfiguration) c d
    (soap₁.received (granted (TrtGetVideoEncoderConfigurationResponse.mk (some cfg)))) (some ep)
    ⟨some { cfg with resolution := some ⟨venc.width, venc.height⟩ }, true⟩ u p
  have hanswer : obeyCall c d .getVideoEncoderConfiguration ⟨some venc.token.str⟩ =
      (.sent (granted ⟨some cfg⟩), d) := by simp only [obeyCall, hcfg]
  have haccept : obeyCall c d .setVideoEncoderConfiguration
      ⟨some { cfg with resolution := some ⟨venc.width, venc.height⟩ }, true⟩ =
      (.sent (granted {}), d.take c venc.token.str
        { cfg with resolution := some ⟨venc.width, venc.height⟩ } true) := by
    simp only [obeyCall, ht]
  have hresolution : setResolution venc cfg =
      { cfg with resolution := some ⟨venc.width, venc.height⟩ } := by
    unfold setResolution
    cases h : cfg.resolution with
    | none => exact absurd h hr
    | some r => rfl
  have hnew : obey c d .soapNew = (true, d) := rfl
  rw [hanswer] at hget
  rw [haccept] at hset
  simp only [Call.program, hc, onvifSetVideoEncoderConfiguration, soapAssert_some, ret_bind, deref_some,
    newContext_eq, exec_op]
  rw [← hc, hnew]
  simp only [↓reduceIte, hget, soapCheckError_received, granted_failure, ret_bind]
  simp only [granted_rep, hresolution]
  refine (hset _).trans ?_
  simp only [soapCheckError_received, granted_failure, ret_bind]
  rfl

def lastAccepted (accepted : List (Call × TrtSetVideoEncoderConfiguration)) (tok : CStr) :
    Option TtVideoEncoderConfiguration :=
  ((accepted.filterMap (·.2.configuration)).filter (·.token = some tok)).getLast?

/-- The device is where the accepted calls take it one after another. -/
structure Serialised (init : Initial) (d : Device) : Prop where
  copies : ∀ tok cfg, d.store tok = some cfg → Copy init tok cfg
  kept : ∀ tok, d.store tok = none → init.store tok = none
  resolution : ∀ tok cfg cfg₀, d.store tok = some cfg → init.store tok = some cfg₀ →
    cfg.resolution = ((lastAccepted d.accepted tok).map (·.resolution)).getD cfg₀.resolution
  requested : ∀ e ∈ d.accepted, ∃ venc cfg, e.1.venc = some venc ∧ e.2.configuration = some cfg ∧
    cfg.token = some venc.token.str ∧ cfg.resolution = some ⟨venc.width, venc.height⟩
  serial : d = (d.accepted.map (·.1)).foldl after ⟨init.store, []⟩

theorem lastAccepted_append (accepted : List (Call × TrtSetVideoEncoderConfiguration)) (c : Call)
    (cfg : TtVideoEncoderConfiguration) (persist : Bool) (tok : CStr) :
    lastAccepted (accepted ++ [(c, ⟨some cfg, persist⟩)]) tok =
      if cfg.token = some tok then some cfg else lastAccepted accepted tok := by
  by_cases h : cfg.token = some tok
  · simp [lastAccepted, List.filterMap_append, List.filter_append, h]
  · simp [lastAccepted, List.filterMap_append, List.filter_append, h]

theorem serialised_initial (init : Initial) : Serialised init ⟨init.store, []⟩ where
  copies _ cfg h := ⟨⟨cfg, h, rfl⟩, init.has_resolution h⟩
  kept _ h := h
  resolution tok cfg cfg₀ h h₀ := by
    obtain rfl : cfg = cfg₀ := Option.some.inj (h.symm.trans h₀)
    rfl
  requested _ he := absurd he List.not_mem_nil
  serial := rfl

theorem after_eq {init : Initial} {d : Device} (h : Serialised init d) {c : Call}
    {venc : TagVideoEncoderConfiguration} {cfg : TtVideoEncoderConfiguration}
    (hasks : Asks init c venc cfg) :
    after d c = d.take c venc.token.str cfg true := by
  obtain ⟨ep, u, p, rfl⟩ := hasks.call
  obtain ⟨cfg₀, h₀, -⟩ := hasks.copy.others
  cases hcur : d.store venc.token.str with
  | none =>
    rw [h.kept _ hcur] at h₀
    cases h₀
  | some cur =>
    have hcopy := h.copies _ _ hcur
    have hcfg := hasks.copy.eq_of_resolution hcopy
    rw [hasks.resolution] at hcfg
    rw [after, exec_program hcur hcopy.token hcopy.resolution, ← hcfg]

theorem Serialised.accept {init : Initial} {d : Device} (h : Serialised init d) {c : Call}
    {venc : TagVideoEncoderConfiguration} {cfg : TtVideoEncoderConfiguration}
    (hasks : Asks init c venc cfg) : Serialised init (d.take c venc.token.str cfg true) := by
  have htoken := hasks.copy.token
  constructor
  · intro tok cfg' hcfg'
    by_cases ht : tok = venc.token.str
    · subst ht
      rw [Device.take_store_self] at hcfg'
      obtain rfl := Option.some.inj hcfg'
      exact hasks.copy
    · rw [Device.take_store_of_ne ht] at hcfg'
      exact h.copies tok cfg' hcfg'
  · intro tok hnone
    by_cases ht : tok = venc.token.str
    · subst ht
      rw [Device.take_store_self] at hnone
      cases hnone
    · rw [Device.take_store_of_ne ht] at hnone
      exact h.kept tok hnone
  · intro tok cfg' cfg₀ hcfg' h₀
    rw [Device.take, lastAccepted_append]
    by_cases ht : tok = venc.token.str
    · subst ht
      rw [Device.take_store_self] at hcfg'
      obtain rfl := Option.some.inj hcfg'
      rw [if_pos htoken]
      rfl
    · rw [Device.take_store_of_ne ht] at hcfg'
      have hne : cfg.token ≠ some tok := fun he => ht (Option.some.inj (he.symm.trans htoken))
      rw [if_neg hne]
      exact h.resolution tok cfg' cfg₀ hcfg' h₀
  · intro e he
    rcases List.mem_append.mp he with he | he
    · exact h.requested e he
    · obtain rfl := List.mem_singleton.mp he
      obtain ⟨ep, u, p, rfl⟩ := hasks.call
      exact ⟨venc, cfg, rfl, rfl, htoken, hasks.resolution⟩
  · rw [Device.take, List.map_append, List.foldl_append, ← h.serial]
    exact (after_eq h hasks).symm

theorem Serialised.handles {init : Initial} {c : Call} {d d' : Device} {o : Op} {x : o.Ans}
    (h : Serialised init d) (hg : guar init c o) (hh : Handles c d o x d') :
    Serialised init d' ∧ rely init o x := by
  cases hh with
  | @get soap ep tok x hx =>
    refine ⟨h, ?_⟩
    intro ha cfg hcfg
    exact ⟨tok, rfl, h.copies tok cfg ((hx ha).symm.trans hcfg)⟩
  | @accept soap ep cfg tok persist x ht hx =>
    obtain ⟨venc, cfg', hreq, hasks⟩ := hg
    obtain ⟨hcfg, rfl⟩ := TrtSetVideoEncoderConfiguration.mk.inj hreq
    obtain rfl := Option.some.inj hcfg
    obtain rfl : tok = venc.token.str := Option.some.inj (ht.symm.trans hasks.copy.token)
    exact ⟨h.accept hasks, trivial⟩
  | @reject s soap ep req x hx =>
    refine ⟨h, ?_⟩
    cases s with
    | getVideoEncoderConfiguration => exact fun ha => absurd ha hx
    | _ => trivial

theorem contract (init : Initial) :
    Clients.Contract (rely init) (guar init) (Serialised init) system where
  program := Call.program_meets init
  handle hI hg hh := hI.handles hg hh
  lost := by
    intro o x hx
    cases o with
    | soapCall s soap ep req =>
      cases s with
      | getVideoEncoderConfiguration => exact fun ha => absurd ha hx
      | _ => trivial
    | _ => exact hx.elim
  own := by
    intro o x ho
    cases o with
    | soapCall s soap ep req => exact absurd trivial ho
    | _ => trivial

/-- Whatever the clients do and the network loses, the device is where the accepted calls take it in
the order of their Set messages. -/
theorem reachable_serialised {ι : Type} [DecidableEq ι] (init : Initial) {todo : ι → List Call}
    {s : Clients.State gsoap ι Call ℤ Device}
    (h : Clients.Reaches system (Clients.initial ⟨init.store, []⟩ todo) s) :
    Serialised init s.server :=
  h.invariant (contract init) (serialised_initial init)

def encoder : TtVideoEncoderConfiguration where
  token := some (.lit "encoder_1")
  resolution := some ⟨640, 480⟩

def oneEncoder : Initial where
  store tok := if tok = .lit "encoder_1" then some encoder else none
  own_token {tok cfg} h := by
    by_cases ht : tok = .lit "encoder_1"
    · rw [if_pos ht] at h
      obtain rfl := Option.some.inj h
      rw [ht]
      rfl
    · rw [if_neg ht] at h
      cases h
  has_resolution {tok cfg} h := by
    by_cases ht : tok = .lit "encoder_1"
    · rw [if_pos ht] at h
      obtain rfl := Option.some.inj h
      exact nofun
    · rw [if_neg ht] at h
      cases h

def resize (width height : ℤ) : Call where
  mediaXAddr := media
  venc := some (resized width height)
  username := some admin
  password := some admin

abbrev Contest := Clients.State gsoap Bool Call ℤ Device

def contest : Contest :=
  Clients.initial ⟨oneEncoder.store, []⟩ fun first => [if first then resize 1280 720 else resize 1920 1080]

def AboutToSet : Clients.Control gsoap Call ℤ → Bool
  | .running _ (.op (.soapCall .setVideoEncoderConfiguration _ _ _) _) => true
  | _ => false

theorem contest_reaches {s s' : Contest} {is : List Bool} (h : s.play system obey is = some s') :
    Clients.Reaches system s s' :=
  Clients.State.play_reaches (fun _ _ _ => handles_obey) (fun _ _ _ => obey_own) h

-- Each client has its answer to the Get after 24 steps, and 3 more make the change.
def fetching : List Bool := List.replicate 24 true ++ List.replicate 24 false

def setting : List Bool := List.replicate 3 true ++ List.replicate 3 false

theorem contest_fetches : ((contest.play system obey fetching).map fun s =>
    (AboutToSet (s.control true), AboutToSet (s.control false), s.server.accepted.length)) =
      some (true, true, 0) := by decide +kernel

theorem contest_sets : ((contest.play system obey (fetching ++ setting)).map fun s => s.server.accepted.length) =
    some 2 := by decide +kernel

theorem reachable_serialised_interleaved : ∃ s s', Clients.Reaches system contest s ∧
    (∀ i, AboutToSet (s.control i)) ∧ s.server.accepted = [] ∧ Clients.Reaches system s s' ∧
    s'.server.accepted.length = 2 ∧ Serialised oneEncoder s'.server := by
  obtain ⟨s', hs', hset⟩ := Option.map_eq_some_iff.mp contest_sets
  rw [Clients.State.play_append] at hs'
  obtain ⟨s, hs, hrest⟩ := Option.bind_eq_some_iff.mp hs'
  have hfetch := contest_fetches
  rw [hs, Option.map_some, Option.some.injEq, Prod.mk.injEq, Prod.mk.injEq] at hfetch
  obtain ⟨htrue, hfalse, hnone⟩ := hfetch
  have hreach := contest_reaches hs
  refine ⟨s, s', hreach, ?_, List.length_eq_zero_iff.mp hnone, contest_reaches hrest, hset, ?_⟩
  · intro i
    cases i
    · exact hfalse
    · exact htrue
  · exact reachable_serialised oneEncoder (hreach.trans (contest_reaches hrest))

end OnvifSdk.Serialisability
