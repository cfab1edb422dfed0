import OnvifSdk.Detection

namespace OnvifSdk.DeviceLoss

open Lib Program Gsoap Detection

def addresses (ms : List WsddProbeMatchType) : List (Ptr CStr) := ms.map (·.xAddrs)

def announced (ds : List Datagram) : List (Ptr CStr) := addresses (ds.flatMap Datagram.probeMatch)

structure LosesNone (ds : List Datagram) (t : Trace) : Prop where
  each : ∀ a ∈ announced ds, a ∈ addresses (delivered t)
  order : (addresses (delivered t)).eraseDups = (announced ds).eraseDups
  sound : ∀ a ∈ addresses (delivered t), a ∈ announced ds

/-- Every address is announced before the first message that does not decode, in answer to a Probe
that was sent. -/
def InTime (ds : List Datagram) (t : Trace) : Prop :=
  ∀ a ∈ announced ds, (∀ n ∈ probed t, n = soapOk) ∧ a ∈ announced (ds.takeWhile Datagram.decodes)

theorem announced_append (ds ds' : List Datagram) :
    announced (ds ++ ds') = announced ds ++ announced ds' := by
  simp [announced, addresses]

theorem addresses_heard (n : ℤ) (ds : List Datagram) :
    addresses (heard n ds) = if n = soapOk then announced (ds.takeWhile Datagram.decodes) else [] := by
  unfold heard
  split_ifs <;> rfl

theorem addresses_heard_prefix (n : ℤ) (ds : List Datagram) : addresses (heard n ds) <+: announced ds := by
  rw [addresses_heard]
  split_ifs with hn
  · obtain ⟨rest, hrest⟩ := List.takeWhile_prefix (l := ds) Datagram.decodes
    refine ⟨announced rest, ?_⟩
    rw [← announced_append, hrest]
  · exact List.nil_prefix

theorem eraseDups_of_prefix {α : Type} [BEq α] [LawfulBEq α] {p l : List α} (hp : p <+: l)
    (hl : ∀ a ∈ l, a ∈ p) : p.eraseDups = l.eraseDups := by
  obtain ⟨rest, rfl⟩ := hp
  have hrest : rest.removeAll p = [] := by
    apply List.filter_eq_nil_iff.mpr
    intro a ha
    simpa using hl a (List.mem_append_right p ha)
  rw [List.eraseDups_append, hrest, List.eraseDups_nil, List.append_nil]

/-- A detection with fuel for one receive more than there are datagrams comes to its end, and loses
no device exactly when all were announced in time. -/
theorem onvifDetectDevice_loses_none_iff {fuel : ℕ} {ds : List Datagram} {t : Trace} {r : Outcome Unit}
    (h : Runs (onvifDetectDevice .debug fuel true) t r) (ha : Arrivals ds t) (hf : ds.length < fuel) :
    r = .error .assertion ∨ (r = .ok () ∧ (LosesNone ds t ↔ InTime ds t)) := by
  rcases onvifDetectDevice_arrivals h ha hf with hr | ⟨n, hr, hp, hd, _⟩
  · exact .inl hr
  refine .inr ⟨hr, ?_⟩
  have hd : delivered t = heard n ds := hd
  have hpre := addresses_heard_prefix n ds
  constructor
  · intro hl a hin
    have hheard := hl.each a hin
    rw [hd, addresses_heard] at hheard
    split_ifs at hheard with hn
    · refine ⟨fun n' hn' => ?_, hheard⟩
      rw [hp, List.mem_singleton] at hn'
      exact hn'.trans hn
    · cases hheard
  · intro hin
    have heach : ∀ a ∈ announced ds, a ∈ addresses (heard n ds) := by
      intro a hm
      obtain ⟨hsent, hbefore⟩ := hin a hm
      rw [addresses_heard, if_pos (hsent n (hp ▸ List.mem_singleton_self n))]
      exact hbefore
    exact ⟨hd ▸ heach, hd ▸ eraseDups_of_prefix hpre heach, hd ▸ hpre.subset⟩

def answer (address : String) : Datagram := probeMatches address (some (.lit address))

def malformed : Datagram := .broken soapSyntaxError (by decide) none {}

theorem onvifDetectDevice_loses_second_camera :
    ∃ t, Runs (onvifDetectDevice .debug 4 true) t (.ok ()) ∧
      Arrivals [answer "http://192.168.0.2", malformed, answer "http://192.168.0.3"] t ∧
      ¬ LosesNone [answer "http://192.168.0.2", malformed, answer "http://192.168.0.3"] t := by
  refine ⟨_, detection_runs 4 [answer "http://192.168.0.2", malformed,
    answer "http://192.168.0.3"], ⟨0, [(answer "http://192.168.0.3").reply], rfl⟩, ?_⟩
  intro hl
  exact absurd (hl.each (some (.lit "http://192.168.0.3")) (by decide)) (by decide)

theorem onvifDetectDevice_loses_no_second_camera :
    ∃ t r, Runs (onvifDetectDevice .debug 3 true) t r ∧
      (r = .error .assertion ∨ (r = .ok () ∧
        (LosesNone [answer "http://192.168.0.2", answer "http://192.168.0.3"] t ↔
          InTime [answer "http://192.168.0.2", answer "http://192.168.0.3"] t))) :=
  ⟨_, _, detection_runs 3 [answer "http://192.168.0.2", answer "http://192.168.0.3"],
    onvifDetectDevice_loses_none_iff (detection_runs 3 _) ⟨1, [], rfl⟩ (by decide)⟩

end OnvifSdk.DeviceLoss
