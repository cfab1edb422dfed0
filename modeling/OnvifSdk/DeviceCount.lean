import OnvifSdk.Detection

namespace OnvifSdk.DeviceCount

open Lib Program Gsoap Detection

def endpoints (ms : List WsddProbeMatchType) : List (Ptr CStr) := ms.map (·.wsaEndpointReference.address)

def addresses (ms : List WsddProbeMatchType) : List (Ptr CStr) := ms.map (·.xAddrs)

def devices (ds : List Datagram) : ℕ := (endpoints (ds.flatMap Datagram.probeMatch)).dedup.length

def WellFormed (ds : List Datagram) : Prop := ∀ d ∈ ds, ∃ header m, d = .probeMatches header m

structure CountsDevices (ds : List Datagram) (t : Trace) : Prop where
  count : reported t = [(devices ds : ℤ)]
  once : ∀ a, (endpoints (delivered t)).count a ≤ 1

/-- No endpoint appears twice, and the count stays within an `int`. Without a callback, a larger
count may also come round to the number of the devices. -/
def NoneRepeated (cb : Bool) (ds : List Datagram) : Prop :=
  ((endpoints (ds.flatMap Datagram.probeMatch)).Nodup ∧ (ds.flatMap Datagram.probeMatch).length < 2 ^ 31) ∨
    (cb = false ∧ (ds.flatMap Datagram.probeMatch).length % 2 ^ 32 = devices ds ∧ devices ds < 2 ^ 31)

def Answered (ds : List Datagram) (t : Trace) : Prop :=
  (∀ n ∈ probed t, n = soapOk) ∨ ds.flatMap Datagram.probeMatch = []

theorem toInt32_ofNat_eq_iff {n d : ℕ} :
    (UInt32.ofNat n).toInt32.toInt = d ↔ n % 2 ^ 32 = d ∧ d < 2 ^ 31 := by
  have hint : (UInt32.ofNat n).toInt32.toInt = ((n % 2 ^ 32 : ℕ) : ℤ).bmod (2 ^ 32) := by
    rw [Int32.toInt, UInt32.toBitVec_toInt32, BitVec.toInt_eq_toNat_bmod]
    rfl
  rw [hint, Int.bmod_eq_emod]
  split_ifs <;> omega

theorem devices_eq_length_iff (ds : List Datagram) :
    devices ds = (ds.flatMap Datagram.probeMatch).length ↔
      (endpoints (ds.flatMap Datagram.probeMatch)).Nodup := by
  unfold devices
  constructor
  · intro h
    have hl : (endpoints (ds.flatMap Datagram.probeMatch)).dedup.length =
        (endpoints (ds.flatMap Datagram.probeMatch)).length := by
      rw [h, endpoints, List.length_map]
    exact (List.dedup_sublist _).eq_of_length hl ▸ List.nodup_dedup _
  · intro h
    rw [h.dedup, endpoints, List.length_map]

theorem heard_of_wellFormed {ds : List Datagram} (h : WellFormed ds) :
    heard soapOk ds = ds.flatMap Datagram.probeMatch := by
  have hall : ds.takeWhile Datagram.decodes = ds := by
    apply List.takeWhile_eq_self_iff.mpr
    intro d hd
    obtain ⟨header, m, rfl⟩ := h d hd
    rfl
  rw [heard, if_pos rfl, hall]

theorem countsDevices_iff {cb : Bool} {ds : List Datagram} {t : Trace} {n : ℤ} (hw : WellFormed ds)
    (hp : probed t = [n]) (hd : delivered t = called cb (heard n ds))
    (ho : reported t = [(UInt32.ofNat (heard n ds).length).toInt32.toInt]) :
    CountsDevices ds t ↔ Answered ds t ∧ NoneRepeated cb ds := by
  have hle : devices ds ≤ (ds.flatMap Datagram.probeMatch).length := by
    have hsub := (List.dedup_sublist (endpoints (ds.flatMap Datagram.probeMatch))).length_le
    rwa [endpoints, List.length_map] at hsub
  by_cases hn : n = soapOk
  · subst hn
    rw [heard_of_wellFormed hw] at hd ho
    have hans : Answered ds t := .inl fun n' hn' => by rwa [hp, List.mem_singleton] at hn'
    have hcount : reported t = [(devices ds : ℤ)] ↔
        (ds.flatMap Datagram.probeMatch).length % 2 ^ 32 = devices ds ∧ devices ds < 2 ^ 31 := by
      rw [ho, List.singleton_inj, toInt32_ofNat_eq_iff]
    have hlen := devices_eq_length_iff ds
    constructor
    · rintro ⟨hc, honce⟩
      refine ⟨hans, ?_⟩
      obtain ⟨hmod, hlt⟩ := hcount.mp hc
      cases cb with
      | false => exact .inr ⟨rfl, hmod, hlt⟩
      | true =>
        rw [hd] at honce
        have hnodup := List.nodup_iff_count_le_one.mpr honce
        exact .inl ⟨hnodup, by rw [← hlen.mpr hnodup]; exact hlt⟩
    · rintro ⟨_, ⟨hnodup, hlt⟩ | ⟨rfl, hmod, hlt⟩⟩
      · have hdev := hlen.mpr hnodup
        refine ⟨hcount.mpr (by omega), ?_⟩
        rw [hd]
        cases cb with
        | false => simp [called, endpoints]
        | true => exact List.nodup_iff_count_le_one.mp hnodup
      · refine ⟨hcount.mpr ⟨hmod, hlt⟩, ?_⟩
        rw [hd]
        simp [called, endpoints]
  · have hheard : heard n ds = [] := if_neg hn
    have hcalled : called cb [] = [] := by cases cb <;> rfl
    rw [hheard] at hd ho
    rw [hcalled] at hd
    have hzero : reported t = [0] := ho
    constructor
    · rintro ⟨hc, _⟩
      rw [hzero, List.singleton_inj] at hc
      have hnil : ds.flatMap Datagram.probeMatch = [] := by
        have hdedup : (endpoints (ds.flatMap Datagram.probeMatch)).dedup = [] :=
          List.length_eq_zero_iff.mp (Int.natCast_eq_zero.mp hc.symm)
        rw [List.dedup_eq_nil] at hdedup
        exact List.map_eq_nil_iff.mp hdedup
      exact ⟨.inr hnil, .inl (by simp [hnil, endpoints])⟩
    · rintro ⟨hsent | hnil, _⟩
      · exact absurd (hsent n (hp ▸ List.mem_singleton_self n)) hn
      · refine ⟨?_, by simp [hd, endpoints]⟩
        rw [hzero, devices, hnil]
        rfl

section Reordering

variable {ds ds' : List Datagram} (hs : ∀ d, d ∈ ds ↔ d ∈ ds')

include hs

theorem mem_probeMatch_iff (m : WsddProbeMatchType) :
    m ∈ ds.flatMap Datagram.probeMatch ↔ m ∈ ds'.flatMap Datagram.probeMatch := by
  simp only [List.mem_flatMap, hs]

theorem devices_congr : devices ds = devices ds' := by
  apply List.Perm.length_eq
  apply (List.perm_ext_iff_of_nodup (List.nodup_dedup _) (List.nodup_dedup _)).mpr
  intro a
  simp only [List.mem_dedup, endpoints, List.mem_map, mem_probeMatch_iff hs]

theorem probeMatch_perm (hnodup : (endpoints (ds.flatMap Datagram.probeMatch)).Nodup)
    (hnodup' : (endpoints (ds'.flatMap Datagram.probeMatch)).Nodup) :
    (ds.flatMap Datagram.probeMatch).Perm (ds'.flatMap Datagram.probeMatch) :=
  (List.perm_ext_iff_of_nodup (List.Nodup.of_map _ hnodup) (List.Nodup.of_map _ hnodup')).mpr
    (mem_probeMatch_iff hs)

end Reordering

theorem delivered_of_countsDevices {cb : Bool} {ds : List Datagram} {t : Trace} {n : ℤ}
    (hw : WellFormed ds) (hp : probed t = [n]) (hd : delivered t = called cb (heard n ds))
    (ha : Answered ds t) : delivered t = called cb (ds.flatMap Datagram.probeMatch) := by
  rw [hd]
  rcases ha with hsent | hnil
  · rw [hsent n (hp ▸ List.mem_singleton_self n), heard_of_wellFormed hw]
  · have hheard : heard n ds = [] := by
      by_cases hn : n = soapOk
      · rw [hn, heard_of_wellFormed hw, hnil]
      · exact if_neg hn
    rw [hheard, hnil]

/-- Two detections that read the same replies, each in any order and any number of times, both count
devices and agree, exactly when neither was given an endpoint twice. -/
theorem onvifDetectDevice_counts_iff {cb : Bool} {fuel fuel' : ℕ} {ds ds' : List Datagram}
    {t t' : Trace} {r r' : Outcome Unit} (h : Runs (onvifDetectDevice .debug fuel cb) t r)
    (h' : Runs (onvifDetectDevice .debug fuel' cb) t' r') (ha : Arrivals ds t) (ha' : Arrivals ds' t')
    (hf : ds.length < fuel) (hf' : ds'.length < fuel') (hw : WellFormed ds)
    (hs : ∀ d, d ∈ ds ↔ d ∈ ds') :
    r = .error .assertion ∨ r' = .error .assertion ∨ (r = .ok () ∧ r' = .ok () ∧
      (CountsDevices ds t ∧ CountsDevices ds' t' ∧ reported t = reported t' ∧
          (addresses (delivered t)).Perm (addresses (delivered t')) ↔
        (Answered ds t ∧ NoneRepeated cb ds) ∧ Answered ds' t' ∧ NoneRepeated cb ds')) := by
  rcases onvifDetectDevice_arrivals h ha hf with hr | ⟨n, hr, hp, hd, ho⟩
  · exact .inl hr
  rcases onvifDetectDevice_arrivals h' ha' hf' with hr' | ⟨n', hr', hp', hd', ho'⟩
  · exact .inr (.inl hr')
  refine .inr (.inr ⟨hr, hr', ?_⟩)
  have hw' : WellFormed ds' := fun d hd => hw d ((hs d).mpr hd)
  rw [← countsDevices_iff hw hp hd ho, ← countsDevices_iff hw' hp' hd' ho']
  refine ⟨fun hall => ⟨hall.1, hall.2.1⟩, fun ⟨hc, hc'⟩ => ⟨hc, hc', ?_, ?_⟩⟩
  · rw [hc.count, hc'.count, devices_congr hs]
  · obtain ⟨hans, _⟩ := (countsDevices_iff hw hp hd ho).mp hc
    obtain ⟨hans', _⟩ := (countsDevices_iff hw' hp' hd' ho').mp hc'
    have honce := List.nodup_iff_count_le_one.mpr hc.once
    have honce' := List.nodup_iff_count_le_one.mpr hc'.once
    rw [delivered_of_countsDevices hw hp hd hans] at honce ⊢
    rw [delivered_of_countsDevices hw' hp' hd' hans'] at honce' ⊢
    cases cb with
    | false => exact .nil
    | true => exact (probeMatch_perm hs honce honce').map _

def answer : Datagram := probeMatches "urn:uuid:0a9c7a1e-3a41-4c61-a2b1-0d0f3f0a1b2c"
  (some (.lit "http://192.168.0.2/onvif/device_service"))

theorem onvifDetectDevice_counts_retransmission :
    ∃ t, Runs (onvifDetectDevice .debug 3 true) t (.ok ()) ∧ Arrivals [answer, answer] t ∧
      devices [answer, answer] = 1 ∧ reported t = [2] ∧ ¬ CountsDevices [answer, answer] t := by
  refine ⟨_, detection_runs 3 [answer, answer], ⟨1, [], rfl⟩, by decide, rfl, ?_⟩
  intro hc
  have hcount : [(2 : ℤ)] = [(devices [answer, answer] : ℤ)] := hc.count
  exact absurd hcount (by decide)

def otherAnswer : Datagram := probeMatches "urn:uuid:5d2f0b44-91c7-4b0e-8c36-7e1a2b3c4d5e"
  (some (.lit "http://192.168.0.3/onvif/device_service"))

theorem onvifDetectDevice_counts_two_cameras : ∃ t t', Runs (onvifDetectDevice .debug 3 true) t (.ok ()) ∧
    Runs (onvifDetectDevice .debug 3 true) t' (.ok ()) ∧ Arrivals [answer, otherAnswer] t ∧
    Arrivals [otherAnswer, answer] t' ∧ CountsDevices [answer, otherAnswer] t ∧
    CountsDevices [otherAnswer, answer] t' ∧ reported t = reported t' ∧
    (addresses (delivered t)).Perm (addresses (delivered t')) := by
  have hrun := detection_runs 3 [answer, otherAnswer]
  have hrun' := detection_runs 3 [otherAnswer, answer]
  have hw : WellFormed [answer, otherAnswer] := by
    intro d hd
    simp only [List.mem_cons, List.not_mem_nil, or_false] at hd
    rcases hd with rfl | rfl <;> exact ⟨_, _, rfl⟩
  have ha : Arrivals [answer, otherAnswer] (detection 3 [answer, otherAnswer]).1 := ⟨1, [], rfl⟩
  have ha' : Arrivals [otherAnswer, answer] (detection 3 [otherAnswer, answer]).1 := ⟨1, [], rfl⟩
  have hs (d : Datagram) : d ∈ [answer, otherAnswer] ↔ d ∈ [otherAnswer, answer] :=
    (List.Perm.swap otherAnswer answer []).mem_iff
  refine ⟨_, _, hrun, hrun', ha, ha', ?_⟩
  rcases onvifDetectDevice_counts_iff hrun hrun' ha ha' (by decide) (by decide) hw hs with hr | hr | ⟨_, _, hcounts⟩
  · cases hr
  · cases hr
  · apply hcounts.mpr
    exact ⟨⟨.inl (by decide), .inl (by decide)⟩, .inl (by decide), .inl (by decide)⟩

end OnvifSdk.DeviceCount
