import OnvifSdk.Discovery
import OnvifSdk.Requests
import OnvifSdk.Host

namespace OnvifSdk.Detection

open Lib Program Gsoap

/-- What the socket holds for one receive. The error of a message that does not decode is not the
one of a timeout. -/
inductive Datagram
  | probeMatches (header : Ptr SoapEnvHeader) (matches' : WsddProbeMatchesType)
  | foreign (header : Ptr SoapEnvHeader)
  | broken (error : ℤ) (h : error ≠ soapOk ∧ error ≠ soapEof) (header : Option (Ptr SoapEnvHeader))
      (rep : WsddProbeMatches)

namespace Datagram

def reply : Datagram → Reply WsddProbeMatches
  | probeMatches header m => ⟨soapOk, soapOk, some header, ⟨some m⟩⟩
  | foreign header => ⟨soapOk, soapOk, some header, {}⟩
  | broken error _ header rep => ⟨error, error, header, rep⟩

def decodes : Datagram → Bool
  | broken .. => false
  | _ => true

def probeMatch : Datagram → List WsddProbeMatchType
  | probeMatches _ m => m.probeMatch.elems
  | _ => []

end Datagram

def timeout : Reply WsddProbeMatches := ⟨soapEof, soapEof, none, {}⟩

def found (x : Reply WsddProbeMatches) : List WsddProbeMatchType :=
  if x.ok then x.rep.wsddProbeMatches.elim [] (·.probeMatch.elems) else []

section Traces

@[simp] def Event.received : Event gsoap → List (Reply WsddProbeMatches)
  | ⟨.soapRecvProbeMatches _, x⟩ => [x]
  | _ => []

@[simp] def Event.delivered : Event gsoap → List WsddProbeMatchType
  | ⟨.cb m, _⟩ => [m]
  | _ => []

@[simp] def Event.reported : Event gsoap → List ℤ
  | ⟨.report n, _⟩ => [n]
  | _ => []

@[simp] def Event.probed : Event gsoap → List ℤ
  | ⟨.soapSendProbe _ _ _, n⟩ => [n]
  | _ => []

def received (t : Trace) : List (Reply WsddProbeMatches) := t.flatMap Event.received

def delivered (t : Trace) : List WsddProbeMatchType := t.flatMap Event.delivered

def reported (t : Trace) : List ℤ := t.flatMap Event.reported

def probed (t : Trace) : List ℤ := t.flatMap Event.probed

variable (e : Event gsoap) (t t' : Trace)

@[simp] theorem received_nil : received [] = [] := rfl

@[simp] theorem received_cons : received (e :: t) = Event.received e ++ received t := rfl

@[simp] theorem received_append : received (t ++ t') = received t ++ received t' := List.flatMap_append

@[simp] theorem delivered_nil : delivered [] = [] := rfl

@[simp] theorem delivered_cons : delivered (e :: t) = Event.delivered e ++ delivered t := rfl

@[simp] theorem delivered_append : delivered (t ++ t') = delivered t ++ delivered t' :=
  List.flatMap_append

@[simp] theorem reported_nil : reported [] = [] := rfl

@[simp] theorem reported_cons : reported (e :: t) = Event.reported e ++ reported t := rfl

@[simp] theorem reported_append : reported (t ++ t') = reported t ++ reported t' := List.flatMap_append

@[simp] theorem probed_nil : probed [] = [] := rfl

@[simp] theorem probed_cons : probed (e :: t) = Event.probed e ++ probed t := rfl

@[simp] theorem probed_append : probed (t ++ t') = probed t ++ probed t' := List.flatMap_append

def calls (cb : Bool) (ms : List WsddProbeMatchType) : Trace :=
  if cb then ms.map fun m => ⟨.cb m, ()⟩ else []

def called (cb : Bool) (ms : List WsddProbeMatchType) : List WsddProbeMatchType := if cb then ms else []

@[simp] theorem received_calls (cb : Bool) (ms : List WsddProbeMatchType) : received (calls cb ms) = [] := by
  cases cb <;> simp [calls, received, List.flatMap_map]

@[simp] theorem delivered_calls (cb : Bool) (ms : List WsddProbeMatchType) :
    delivered (calls cb ms) = called cb ms := by
  cases cb <;> simp [calls, called, delivered, List.flatMap_map]

@[simp] theorem reported_calls (cb : Bool) (ms : List WsddProbeMatchType) : reported (calls cb ms) = [] := by
  cases cb <;> simp [calls, reported, List.flatMap_map]

@[simp] theorem probed_calls (cb : Bool) (ms : List WsddProbeMatchType) : probed (calls cb ms) = [] := by
  cases cb <;> simp [calls, probed, List.flatMap_map]

theorem called_append (cb : Bool) (ms ms' : List WsddProbeMatchType) :
    called cb (ms ++ ms') = called cb ms ++ called cb ms' := by
  cases cb <;> rfl

end Traces

theorem callBack_runs {cb : Bool} {ms : List WsddProbeMatchType} {t : Trace} {r : Outcome Unit} :
    Runs (callBack cb ms) t r ↔ t = calls cb ms ∧ r = .ok () := by
  induction ms generalizing t with
  | nil => cases cb <;> simp [callBack, calls]
  | cons m ms ih =>
    cases cb with
    | false => simpa [callBack, calls] using ih
    | true =>
      simp only [callBack, ↓reduceIte, perform, op_bind, ret_bind, runs_op, ih]
      constructor
      · rintro ⟨⟨⟩, t, rfl, rfl, rfl⟩
        exact ⟨rfl, rfl⟩
      · rintro ⟨rfl, rfl⟩
        exact ⟨(), _, rfl, rfl, rfl⟩

theorem detectStep_runs {cb : Bool} {c : Soap} {count : UInt32} {t : Trace}
    {r : Outcome (ℤ × Ptr Soap × UInt32)} (h : Runs (detectStep cb (some c) count) t r) :
    ∃ x, t = ⟨.soapRecvProbeMatches (soapBegin c), x⟩ :: calls cb (found x) ∧
      r = .ok (x.status, some ((soapBegin c).received x), count + .ofNat (found x).length) := by
  simp only [detectStep, soapRecvProbeMatches, deref_some, ret_bind, perform, op_bind, pure_eq,
    runs_op] at h
  obtain ⟨x, t, rfl, h⟩ := h
  refine ⟨x, ?_⟩
  have hnone : calls cb [] = [] := by cases cb <;> rfl
  simp only [Soap.received] at h
  by_cases hs : x.status = soapOk
  · by_cases he : x.error = soapOk
    · simp only [hs, he, ↓reduceIte, ne_eq, not_true, runDump_of_ends (dumpWsddProbeMatches_ends _)] at h
      have hx : found x = x.rep.wsddProbeMatches.elim [] (·.probeMatch.elems) := if_pos ⟨hs, he⟩
      cases hm : x.rep.wsddProbeMatches with
      | none =>
        simp only [hm] at h
        obtain ⟨rfl, rfl⟩ := runs_ret.mp h
        simp [hx, hm, hnone, hs, he, Soap.received]
      | some m =>
        simp only [hm, ret_bind] at h
        rcases runs_bind.mp h with ⟨e, h', rfl⟩ | ⟨_, t₁, t₂, rfl, h', h''⟩
        · cases (callBack_runs.mp h').2
        · obtain ⟨rfl, _⟩ := callBack_runs.mp h'
          obtain ⟨rfl, rfl⟩ := runs_ret.mp h''
          simp [hx, hm, hs, he, Soap.received]
    · simp only [hs, he, ↓reduceIte, ne_eq, not_false_iff] at h
      obtain ⟨rfl, rfl⟩ := runs_ret.mp h
      have hx : found x = [] := if_neg fun ho => he ho.2
      simp [hx, hnone, hs, Soap.received]
  · simp only [hs, ↓reduceIte] at h
    obtain ⟨rfl, rfl⟩ := runs_ret.mp h
    have hx : found x = [] := if_neg fun ho => hs ho.1
    simp [hx, hnone, Soap.received]

/-- The replies that a loop entered with the status `n` can read before its status is `m`. -/
inductive Heard : ℤ → List (Reply WsddProbeMatches) → ℤ → Prop
  | nil (n : ℤ) : Heard n [] n
  | cons {x : Reply WsddProbeMatches} {xs : List (Reply WsddProbeMatches)} {m : ℤ}
      (h : Heard x.status xs m) : Heard soapOk (x :: xs) m

theorem detectLoop_runs {cb : Bool} {fuel : ℕ} {n : ℤ} {c : Soap} {count : UInt32} {t : Trace}
    {r : Outcome (Ptr Soap × UInt32)} (h : Runs (detectLoop cb fuel n (some c) count) t r) :
    ∃ m, Heard n (received t) m ∧ delivered t = called cb ((received t).flatMap found) ∧
      probed t = [] ∧ reported t = [] ∧
      ((m ≠ soapOk ∧ ∃ c', r = .ok (some c', count + .ofNat ((received t).flatMap found).length)) ∨
        (m = soapOk ∧ r = .error .exhausted ∧ (received t).length = fuel)) := by
  have hnone : called cb [] = [] := by cases cb <;> rfl
  induction fuel generalizing n c count t with
  | zero =>
    unfold detectLoop at h
    split_ifs at h with hn
    · obtain ⟨rfl, rfl⟩ := runs_stop.mp h
      exact ⟨n, .nil n, hnone.symm, rfl, rfl, .inr ⟨hn, rfl, rfl⟩⟩
    · obtain ⟨rfl, rfl⟩ := runs_ret.mp h
      exact ⟨n, .nil n, hnone.symm, rfl, rfl, .inl ⟨hn, c, by simp [received]⟩⟩
  | succ fuel ih =>
    unfold detectLoop at h
    split_ifs at h with hn
    · subst hn
      rcases runs_bind.mp h with ⟨e, h', _⟩ | ⟨⟨n, soap, count'⟩, t₁, t₂, rfl, h', h''⟩
      · obtain ⟨x, _, hr⟩ := detectStep_runs h'
        cases hr
      obtain ⟨x, rfl, hr⟩ := detectStep_runs h'
      cases hr
      obtain ⟨m, hm, hd, hp, ho, hr⟩ := ih h''
      have hx : received (⟨.soapRecvProbeMatches (soapBegin c), x⟩ :: calls cb (found x) ++ t₂) =
          x :: received t₂ := by simp
      rw [hx]
      refine ⟨m, .cons hm, ?_, by simpa using hp, by simpa using ho, ?_⟩
      · rw [List.flatMap_cons, called_append, ← hd]
        simp
      · rcases hr with ⟨hm, c', rfl⟩ | ⟨hm, rfl, hl⟩
        · refine .inl ⟨hm, c', ?_⟩
          rw [List.flatMap_cons, List.length_append, UInt32.ofNat_add, UInt32.add_assoc]
        · exact .inr ⟨hm, rfl, by rw [List.length_cons, hl]⟩
    · obtain ⟨rfl, rfl⟩ := runs_ret.mp h
      exact ⟨n, .nil n, hnone.symm, rfl, rfl, .inl ⟨hn, c, by simp [received]⟩⟩

def SetupStep : Op → Prop
  | .soapNew | .soapMalloc _ | .soapWsaRandUuid => True
  | _ => False

theorem setupSteps {t : Trace} (h : ∀ e ∈ t, SetupStep e.1) :
    received t = [] ∧ delivered t = [] ∧ reported t = [] ∧ probed t = [] := by
  simp only [received, delivered, reported, probed, List.flatMap_eq_nil_iff, ← forall_and]
  rintro ⟨o, x⟩
  by_cases he : ⟨o, x⟩ ∈ t
  · have ho : SetupStep o := h _ he
    cases o <;> first | exact ho.elim | simp
  · simp [he]

def SetsUp {α : Type} (good : α → Prop) (p : Prog α) : Prop :=
  p.Meets (fun _ _ => True) SetupStep fun r => match r with
    | .ok a => good a
    | .error e => e = .assertion

theorem SetsUp.bind {α β : Type} {good : α → Prop} {good' : β → Prop} {p : Prog α} {f : α → Prog β}
    (h : SetsUp good p) (hf : ∀ a, good a → SetsUp good' (f a)) : SetsUp good' (p >>= f) := by
  apply meets_bind.mpr
  apply h.mono (fun _ hg => hg)
  intro r hr
  cases r with
  | ok a => exact hf a hr
  | error e => exact hr

theorem soapAssert_setsUp (c : Bool) : SetsUp (fun _ => c = true) (soapAssert .debug c) := by
  cases c
  · exact rfl
  · exact rfl

theorem onvifSoapMalloc_setsUp (c : Soap) (n : Size) :
    SetsUp (fun a => a.2 = some c) (onvifSoapMalloc .debug (some c) n) := by
  unfold onvifSoapMalloc
  split_ifs with hn
  · exact rfl
  · refine ⟨trivial, fun p _ => ?_⟩
    cases p <;> exact rfl

theorem onvifInitHeader_setsUp (c : Soap) :
    SetsUp (fun soap => ∃ c', soap = some c') (onvifInitHeader .debug (some c)) := by
  apply (soapAssert_setsUp _).bind
  intro _ _
  apply (onvifSoapMalloc_setsUp c _).bind
  rintro ⟨_, soap⟩ rfl
  refine ⟨trivial, fun messageID _ => ?_⟩
  apply (onvifSoapMalloc_setsUp _ _).bind
  rintro ⟨wsaTo, soap⟩ rfl
  apply (onvifSoapMalloc_setsUp _ _).bind
  rintro ⟨wsaAction, soap⟩ rfl
  exact ⟨_, rfl⟩

theorem onvifInitProbeType_setsUp (c : Soap) :
    SetsUp (fun a => a.2 = some c) (onvifInitProbeType .debug (some c)) := by
  apply (soapAssert_setsUp _).bind
  intro _ _
  apply (onvifSoapMalloc_setsUp c _).bind
  rintro ⟨_, soap⟩ rfl
  apply (onvifSoapMalloc_setsUp c _).bind
  rintro ⟨item, soap⟩ rfl
  apply (onvifSoapMalloc_setsUp c _).bind
  rintro ⟨types, soap⟩ rfl
  exact rfl

theorem onvifDetectDevice_runs {cb : Bool} {fuel : ℕ} {t : Trace} {r : Outcome Unit}
    (h : Runs (onvifDetectDevice .debug fuel cb) t r) :
    (r = .error .assertion ∧ received t = [] ∧ delivered t = [] ∧ probed t = []) ∨
      ∃ n m, probed t = [n] ∧ Heard n (received t) m ∧
        delivered t = called cb ((received t).flatMap found) ∧
        ((m ≠ soapOk ∧ r = .ok () ∧
            reported t = [(UInt32.ofNat ((received t).flatMap found).length).toInt32.toInt]) ∨
          (m = soapOk ∧ r = .error .exhausted ∧ (received t).length = fuel)) := by
  rcases newContext_runs.mp h with ⟨rfl, rfl⟩ | ⟨t, rfl, h₀⟩
  · exact .inl ⟨rfl, rfl, rfl, rfl⟩
  rcases runs_bind.mp h₀ with ⟨e, hh, rfl⟩ | ⟨soap, t₁, t₂, rfl, hh, h₁⟩
  · obtain ⟨hs, rfl⟩ := (onvifInitHeader_setsUp freshSoap).runs hh (fun _ _ => trivial)
    obtain ⟨hx, hd, _, hp⟩ := setupSteps hs
    exact .inl ⟨rfl, by simpa using hx, by simpa using hd, by simpa using hp⟩
  obtain ⟨hs₁, c, rfl⟩ := (onvifInitHeader_setsUp freshSoap).runs hh (fun _ _ => trivial)
  obtain ⟨hx₁, hd₁, ho₁, hp₁⟩ := setupSteps hs₁
  rcases runs_bind.mp h₁ with ⟨e, hq, rfl⟩ | ⟨⟨req, soap⟩, t₂, t₃, rfl, hq, h₂⟩
  · obtain ⟨hs, rfl⟩ := (onvifInitProbeType_setsUp c).runs hq (fun _ _ => trivial)
    obtain ⟨hx, hd, _, hp⟩ := setupSteps hs
    exact .inl ⟨rfl, by simp [hx₁, hx], by simp [hd₁, hd], by simp [hp₁, hp]⟩
  obtain ⟨hs₂, hsoap⟩ := (onvifInitProbeType_setsUp c).runs hq (fun _ _ => trivial)
  obtain rfl : soap = some c := hsoap
  obtain ⟨hx₂, hd₂, ho₂, hp₂⟩ := setupSteps hs₂
  simp only [soapSendProbe, deref_some, ret_bind, perform, op_bind, pure_eq, runs_op] at h₂
  obtain ⟨n, t₃, rfl, h₃⟩ := h₂
  right
  rcases runs_bind.mp h₃ with ⟨e, hl, rfl⟩ | ⟨⟨soap, count⟩, t₃, t₄, rfl, hl, h₄⟩
  · obtain ⟨m, hm, hd, hp, _, ⟨_, c', hr⟩ | ⟨hz, hr, hlen⟩⟩ := detectLoop_runs hl
    · cases hr
    have hx : received (⟨.soapNew, true⟩ :: (t₁ ++ (t₂ ++
        ⟨.soapSendProbe (soapBegin c) soapMcastAddr req, n⟩ :: t₃))) = received t₃ := by
      simp [hx₁, hx₂]
    rw [hx]
    obtain rfl := Except.error.inj hr
    exact ⟨n, m, by simp [hp₁, hp₂, hp], hm, by simp [hd₁, hd₂, hd], .inr ⟨hz, rfl, hlen⟩⟩
  · obtain ⟨m, hm, hd, hp, ho, ⟨hne, c', hr⟩ | ⟨_, hr, _⟩⟩ := detectLoop_runs hl
    · cases hr
      obtain ⟨⟨⟩, t₄, rfl, h₅⟩ := runs_op.mp h₄
      obtain ⟨rfl, rfl⟩ := soapExit_runs.mp h₅
      have hx : received (⟨.soapNew, true⟩ :: (t₁ ++ (t₂ ++
          ⟨.soapSendProbe (soapBegin c) soapMcastAddr req, n⟩ :: (t₃ ++
            [⟨.report (0 + UInt32.ofNat ((received t₃).flatMap found).length).toInt32.toInt, ()⟩,
              ⟨.soapDelete, ()⟩])))) = received t₃ := by
        simp [hx₁, hx₂]
      refine ⟨n, m, ?_⟩
      rw [hx]
      exact ⟨by simp [hp₁, hp₂, hp], hm, by simp [hd₁, hd₂, hd], .inl ⟨hne, rfl, by
        simp [ho₁, ho₂, ho]⟩⟩
    · cases hr

def Arrivals (ds : List Datagram) (t : Trace) : Prop :=
  ∃ k, received t <+: ds.map Datagram.reply ++ List.replicate k timeout

theorem found_timeout : found timeout = [] := if_neg (by decide)

theorem found_reply (d : Datagram) : found d.reply = d.probeMatch := by
  cases d with
  | probeMatches header m => rfl
  | foreign header => rfl
  | broken error h header rep => exact if_neg fun ho => h.1 ho.1

theorem Heard.arrivals {ds : List Datagram} {xs : List (Reply WsddProbeMatches)} {k : ℕ} {m : ℤ}
    (h : Heard soapOk xs m) (hx : xs <+: ds.map Datagram.reply ++ List.replicate k timeout) :
    (m = soapOk ∧ xs.length ≤ ds.length) ∨
      (m ≠ soapOk ∧ xs.flatMap found = (ds.takeWhile Datagram.decodes).flatMap Datagram.probeMatch) := by
  induction ds generalizing xs with
  | nil =>
    cases h with
    | nil => exact .inl ⟨rfl, le_rfl⟩
    | @cons x xs _ h =>
      obtain rfl : x = timeout := by
        have hm := hx.subset (List.mem_cons_self)
        simp only [List.map_nil, List.nil_append] at hm
        exact (List.mem_replicate.mp hm).2
      cases h with
      | nil => exact .inr ⟨by decide, by simp [found_timeout]⟩
  | cons d ds ih =>
    cases h with
    | nil => exact .inl ⟨rfl, Nat.zero_le _⟩
    | @cons x xs _ h =>
      rw [List.map_cons, List.cons_append, List.cons_prefix_cons] at hx
      obtain ⟨rfl, hx⟩ := hx
      rw [List.flatMap_cons, found_reply]
      have hok (hd : d.decodes = true) (hs : d.reply.status = soapOk) :
          (m = soapOk ∧ (d.reply :: xs).length ≤ (d :: ds).length) ∨
            (m ≠ soapOk ∧ d.probeMatch ++ xs.flatMap found =
              ((d :: ds).takeWhile Datagram.decodes).flatMap Datagram.probeMatch) := by
        rw [hs] at h
        rcases ih h hx with ⟨hm, hl⟩ | ⟨hm, hf⟩
        · exact .inl ⟨hm, Nat.succ_le_succ hl⟩
        · exact .inr ⟨hm, by rw [List.takeWhile_cons_of_pos hd, List.flatMap_cons, hf]⟩
      cases d with
      | probeMatches header m' => exact hok rfl rfl
      | foreign header => exact hok rfl rfl
      | broken error hb header rep =>
        cases h with
        | nil => exact .inr ⟨hb.1, by simp [Datagram.probeMatch, Datagram.decodes]⟩
        | cons h => exact absurd rfl hb.1

/-- The matches that reach a detection whose Probe was answered with `n`. -/
def heard (n : ℤ) (ds : List Datagram) : List WsddProbeMatchType :=
  if n = soapOk then (ds.takeWhile Datagram.decodes).flatMap Datagram.probeMatch else []

theorem onvifDetectDevice_arrivals {cb : Bool} {fuel : ℕ} {ds : List Datagram} {t : Trace}
    {r : Outcome Unit} (h : Runs (onvifDetectDevice .debug fuel cb) t r) (ha : Arrivals ds t)
    (hf : ds.length < fuel) :
    r = .error .assertion ∨ ∃ n, r = .ok () ∧ probed t = [n] ∧ delivered t = called cb (heard n ds) ∧
      reported t = [(UInt32.ofNat (heard n ds).length).toInt32.toInt] := by
  rcases onvifDetectDevice_runs h with ⟨hr, _⟩ | ⟨n, m, hp, hm, hd, hr⟩
  · exact .inl hr
  right
  obtain ⟨k, hx⟩ := ha
  by_cases hn : n = soapOk
  · subst hn
    rcases hm.arrivals hx with ⟨hz, hl⟩ | ⟨hne, hfound⟩
    · rcases hr with ⟨hne, _⟩ | ⟨_, _, hl'⟩
      · exact absurd hz hne
      · omega
    · rcases hr with ⟨_, hr, ho⟩ | ⟨hz, _⟩
      · rw [hfound] at hd ho
        exact ⟨soapOk, hr, hp, hd, ho⟩
      · exact absurd hz hne
  · have hheard : heard n ds = [] := if_neg hn
    generalize hxs : received t = xs at hm hx hd hr
    cases hm with
    | cons _ => exact absurd rfl hn
    | nil =>
      rcases hr with ⟨_, hr, ho⟩ | ⟨hz, _⟩
      · exact ⟨n, hr, hp, by rw [hheard]; exact hd, by rw [hheard]; exact ho⟩
      · exact absurd hz hn

def camera (address : String) (xAddrs : Ptr CStr) : WsddProbeMatchType where
  wsaEndpointReference := { address := some (.lit address) }
  xAddrs := xAddrs

def probeMatches (address : String) (xAddrs : Ptr CStr) : Datagram :=
  .probeMatches none ⟨⟨[camera address xAddrs], by simp⟩⟩

def detection (fuel : ℕ) (ds : List Datagram) : Trace × Outcome Unit :=
  onHost (fun s _ _ _ => unreachable s) (ds.map Datagram.reply) (onvifDetectDevice .debug fuel true)

theorem detection_runs (fuel : ℕ) (ds : List Datagram) :
    Runs (onvifDetectDevice .debug fuel true) (detection fuel ds).1 (detection fuel ds).2 :=
  onHost_runs _ _ _

end OnvifSdk.Detection
