import OnvifSdk.ProfileCount
import OnvifSdk.SetResolution

namespace OnvifSdk.StringCopies

open Lib Program Gsoap

def mediaXAddr (rep : TdsGetCapabilitiesResponse) : Ptr CStr :=
  (rep.capabilities.bind (·.media)).bind (·.xAddr)

def eventXAddr (rep : TdsGetCapabilitiesResponse) : Ptr CStr :=
  (rep.capabilities.bind (·.events)).bind (·.xAddr)

def Kept {n : ℕ} (field : CharArray n) (src : Ptr CStr) : Prop :=
  field.str.bytes = src.elim [] (·.bytes) ∧ (field.str.bytes = [] ↔ src = none)

theorem kept_copied_iff {n : ℕ} {src : Ptr CStr} :
    Kept (copied n src) src ↔ ∀ s, src = some s → 0 < s.length ∧ s.length ≤ n := by
  unfold Kept
  rw [copied_str]
  cases src with
  | none => simp
  | some s =>
    have hcut : s.bytes.take n = s.bytes ↔ s.length ≤ n := by
      rw [List.take_eq_self_iff]
      rfl
    simp only [Option.elim_some, hcut, reduceCtorEq, iff_false, Option.some.injEq, forall_eq']
    rw [and_comm]
    apply and_congr_left
    intro hle
    rw [hcut.mpr hle, CStr.length, List.length_pos_iff]

theorem onvifGetCapabilities_outcome {ep username password : Ptr CStr} {capa : TagCapabilities}
    {t : Trace} {r : Outcome (ℤ × Ptr TagCapabilities)}
    (h : Runs (onvifGetCapabilities .debug ep (some capa) username password) t r) :
    ((∃ e, r = .error e) ∧ exchanges .getCapabilities t = []) ∨
      ∃ x : Exchange TdsGetCapabilitiesResponse, exchanges .getCapabilities t = [({}, x)] ∧
        ((x.Accepted ∧ r = .ok (0, some (tagCapabilities (x.reply {}).rep))) ∨
          (¬ x.Accepted ∧ ∃ n, n ≠ 0 ∧ r = .ok (n, some capa))) := by
  cases ep with
  | none =>
    obtain ⟨rfl, rfl⟩ := runs_stop.mp h
    exact .inl ⟨⟨_, rfl⟩, rfl⟩
  | some ep =>
    rcases service_outcome h with ⟨he, hnone⟩ | ⟨c, x, t₂, ht, _, h₂⟩
    · exact .inl ⟨he, hnone _⟩
    refine .inr ⟨x, ?_⟩
    rw [ht, exchange_same]
    by_cases ha : x.Accepted
    · have hf := Exchange.failure_of_accepted ha (Service.zero .getCapabilities)
      have hs := ((x.accepted_iff (Service.zero .getCapabilities)).mp ha).1
      simp only [soapCheckError_received, hf, ret_bind, deref_some,
        runDump_of_ends (dumpTdsGetCapabilitiesResponse_prints _).ends] at h₂
      obtain ⟨rfl, rfl⟩ := soapExit_runs.mp h₂
      rw [hs]
      exact ⟨rfl, .inl ⟨ha, rfl⟩⟩
    · obtain ⟨e, hf, he⟩ := Exchange.failure_of_not_accepted ha (Service.zero .getCapabilities)
      simp only [soapCheckError_received, hf, ret_bind] at h₂
      obtain ⟨rfl, rfl⟩ := soapExit_runs.mp h₂
      exact ⟨rfl, .inr ⟨ha, e, he, rfl⟩⟩

theorem onvifGetCapabilities_runs {ep username password : Ptr CStr} {capa : TagCapabilities} {t : Trace}
    {n : ℤ} {out : Ptr TagCapabilities}
    (h : Runs (onvifGetCapabilities .debug ep (some capa) username password) t (.ok (n, out))) :
    ∃ x : Exchange TdsGetCapabilitiesResponse, exchanges .getCapabilities t = [({}, x)] ∧
      ((x.Accepted ∧ n = 0 ∧ out = some (tagCapabilities (x.reply {}).rep)) ∨
        (¬ x.Accepted ∧ n ≠ 0 ∧ out = some capa)) := by
  rcases onvifGetCapabilities_outcome h with ⟨⟨e, hr⟩, _⟩ | ⟨x, hx, ⟨ha, hr⟩ | ⟨ha, n', hn, hr⟩⟩
  · cases hr
  · cases hr
    exact ⟨x, hx, .inl ⟨ha, rfl, rfl⟩⟩
  · cases hr
    exact ⟨x, hx, .inr ⟨ha, hn, rfl⟩⟩

section Uri

variable {sizeuri : UInt32} {mediaUri : Ptr TtMediaUri} {rest out : List UInt8} {n : ℤ} {t : Trace}

def Fits (mediaUri : Ptr TtMediaUri) (sizeuri : UInt32) (s : CStr) : Prop :=
  mediaUri.bind (·.uri) = some s ∧ s.length + 1 ≤ sizeuri.toNat

theorem storeUri_runs {r : Outcome (ℤ × List UInt8)}
    (h : Runs (storeUri mediaUri (filled [] sizeuri.toNat ++ rest) sizeuri) t r) :
    t = [] ∧ ((∃ s, Fits mediaUri sizeuri s ∧ r = .ok (0, filled s.bytes sizeuri.toNat ++ rest)) ∨
      ((¬ ∃ s, Fits mediaUri sizeuri s) ∧ r = .ok (-1, filled [] sizeuri.toNat ++ rest))) := by
  unfold storeUri at h
  cases hm : mediaUri.bind (·.uri) with
  | none =>
    simp only [hm] at h
    obtain ⟨rfl, rfl⟩ := runs_ret.mp h
    refine ⟨rfl, .inr ⟨?_, rfl⟩⟩
    rintro ⟨s, hs, _⟩
    rw [hm] at hs
    cases hs
  | some s =>
    simp only [hm] at h
    split_ifs at h with hlt
    · rw [strcpy_filled s hlt] at h
      obtain ⟨rfl, rfl⟩ := runs_ret.mp h
      exact ⟨rfl, .inl ⟨s, ⟨hm, hlt⟩, rfl⟩⟩
    · obtain ⟨rfl, rfl⟩ := runs_ret.mp h
      refine ⟨rfl, .inr ⟨?_, rfl⟩⟩
      rintro ⟨s', hs, hle⟩
      obtain rfl := Option.some.inj (hm.symm.trans hs)
      exact hlt hle

def UriReturned (accepted : Prop) (mediaUri : Ptr TtMediaUri) (sizeuri : UInt32) (n : ℤ)
    (out : List UInt8) : Prop :=
  (n = 0 ↔ accepted ∧ ∃ s, Fits mediaUri sizeuri s) ∧
    (n = 0 → ∃ s, mediaUri.bind (·.uri) = some s ∧ cstring out = s)

theorem uriTail_runs {ρ : Type} {x : Exchange ρ} {z : ρ} {c c' : Soap} {d : Dump} (hd : d.Ends)
    (h : Runs (do
      let failed ← soapCheckError (x.reply z).status (some (c.received (x.reply z)))
      match failed with
      | some result => soapExit (some c') (result, filled [] sizeuri.toNat ++ rest)
      | none => do
        runDump d
        let (result, uri) ← storeUri mediaUri (filled [] sizeuri.toNat ++ rest) sizeuri
        soapExit (some c') (result, uri)) t (.ok (n, out))) :
    t = [⟨.soapDelete, ()⟩] ∧ UriReturned x.Accepted mediaUri sizeuri n out := by
  by_cases ha : x.Accepted
  · simp only [soapCheckError_received, Exchange.failure_of_accepted ha z, ret_bind,
      runDump_of_ends hd] at h
    obtain ⟨⟨n', uri⟩, t₁, t₂, rfl, h₁, h₂⟩ := h.of_bind
    obtain ⟨rfl, hcases⟩ := storeUri_runs h₁
    obtain ⟨rfl, hr⟩ := soapExit_runs.mp h₂
    cases hr
    refine ⟨rfl, ?_⟩
    rcases hcases with ⟨s, hfits, hr⟩ | ⟨hnot, hr⟩
    · cases hr
      have hlt : s.length < sizeuri.toNat := hfits.2
      exact ⟨⟨fun _ => ⟨ha, s, hfits⟩, fun _ => rfl⟩, fun _ => ⟨s, hfits.1, cstring_filled s hlt rest⟩⟩
    · cases hr
      refine ⟨⟨fun hn => ?_, fun hs => absurd hs.2 hnot⟩, fun hn => ?_⟩ <;> omega
  · obtain ⟨e, hf, he⟩ := Exchange.failure_of_not_accepted ha z
    simp only [soapCheckError_received, hf, ret_bind] at h
    obtain ⟨rfl, hr⟩ := soapExit_runs.mp h
    cases hr
    exact ⟨rfl, ⟨fun hn => absurd hn he, fun hs => absurd hs.1 ha⟩, fun hn => absurd hn he⟩

theorem uriRequest_runs {s : Service} {ep username password : Ptr CStr} {req : s.Req} {uri : List UInt8}
    {α : Type} {f : List UInt8 → ℤ × Ptr Soap × s.Rep → Prog α} {a : α}
    (h : Runs (lift (memset uri 0 sizeuri.toNat) >>= fun uri =>
      soapAssertAssign .debug (onvifSoapNew .debug soapSockTimeout) >>= fun soap =>
        request .debug s soap ep req username password >>= f uri) t (.ok a)) :
    ∃ (c : Soap) (x : Exchange s.Rep) (t' : Trace), exchanges s t = (req, x) :: exchanges s t' ∧
      Runs (f (filled [] sizeuri.toNat ++ uri.drop sizeuri.toNat) ((x.reply s.zero).status,
        some (c.received (x.reply s.zero)), (x.reply s.zero).rep)) t' (.ok a) := by
  by_cases hs : sizeuri.toNat ≤ uri.length
  · simp only [memset_filled hs, lift_ok, ret_bind] at h
    obtain ⟨c, x, t', ht, _, h'⟩ := service_runs h
    exact ⟨c, x, t', by rw [ht, exchange_same]; rfl, h'⟩
  · have hset : memset uri 0 sizeuri.toNat = .error .memory := if_neg hs
    simp only [hset, lift_error, stop_bind] at h
    cases (runs_stop.mp h).2

theorem onvifGetStreamUri_runs {ep token username password : Ptr CStr} {uri : List UInt8}
    (h : Runs (onvifGetStreamUri .debug ep token (some uri) sizeuri username password) t
      (.ok (n, out))) :
    ∃ req x, exchanges .getStreamUri t = [(req, x)] ∧ req.profileToken = token ∧
      UriReturned x.Accepted (x.reply (Service.zero .getStreamUri)).rep.mediaUri sizeuri n out := by
  cases ep with
  | none => cases (runs_stop.mp h).2
  | some ep =>
    simp only [onvifGetStreamUri, soapAssert_some, deref_some, ret_bind] at h
    obtain ⟨c, x, t₂, ht, h₂⟩ := uriRequest_runs h
    obtain ⟨rfl, hx⟩ := uriTail_runs (logMediaUri_prints _ _ _ _ _).ends h₂
    exact ⟨_, x, ht, rfl, hx⟩

theorem onvifGetSnapshotUri_runs {ep token username password : Ptr CStr} {uri : List UInt8}
    (h : Runs (onvifGetSnapshotUri .debug ep token (some uri) sizeuri username password) t
      (.ok (n, out))) :
    ∃ req x, exchanges .getSnapshotUri t = [(req, x)] ∧ req.profileToken = token ∧
      UriReturned x.Accepted (x.reply (Service.zero .getSnapshotUri)).rep.mediaUri sizeuri n out := by
  cases ep with
  | none => cases (runs_stop.mp h).2
  | some ep =>
    simp only [onvifGetSnapshotUri, soapAssert_some, deref_some, ret_bind] at h
    obtain ⟨c, x, t₂, ht, h₂⟩ := uriRequest_runs h
    obtain ⟨rfl, hx⟩ := uriTail_runs (logMediaUri_prints _ _ _ _ _).ends h₂
    exact ⟨_, x, ht, rfl, hx⟩

end Uri

section Configuration

variable {s : Service} {ep token username password : Ptr CStr} {t : Trace} {n : ℤ}

theorem asked_runs {req : s.Req} (d : s.Rep → Dump)
    (h : Runs (soapAssertAssign .debug (onvifSoapNew .debug soapSockTimeout) >>= fun soap =>
      request .debug s soap ep req username password >>= fun a => do
        let failed ← soapCheckError a.1 a.2.1
        match failed with
        | some result => soapExit a.2.1 result
        | none => do
          runDump (d a.2.2)
          soapExit a.2.1 a.1) t (.ok n)) : ∃ x, exchanges s t = [(req, x)] := by
  obtain ⟨c, x, t₂, ht, _, h₂⟩ := service_runs h
  have hdelete : t₂ = [⟨.soapDelete, ()⟩] := by
    simp only [soapCheckError_received, ret_bind] at h₂
    cases hf : (x.reply s.zero).failure with
    | some e =>
      simp only [hf] at h₂
      exact (soapExit_runs.mp h₂).1
    | none =>
      simp only [hf] at h₂
      cases hd : d (x.reply s.zero).rep with
      | error e =>
        simp only [hd, runDump, lift_error, stop_bind] at h₂
        cases (runs_stop.mp h₂).2
      | ok a =>
        simp only [runDump_of_ends ⟨a, hd⟩, ret_bind] at h₂
        exact (soapExit_runs.mp h₂).1
  refine ⟨x, ?_⟩
  rw [ht, exchange_same, hdelete]
  rfl

theorem onvifGetVideoEncoderConfigurationOptions_runs
    (h : Runs (onvifGetVideoEncoderConfigurationOptions .debug ep token username password) t (.ok n)) :
    ∃ x, exchanges .getVideoEncoderConfigurationOptions t = [({ configurationToken := token }, x)] := by
  cases ep with
  | none => cases (runs_stop.mp h).2
  | some ep => exact asked_runs dumpTrtGetVideoEncoderConfigurationOptionsResponse h

theorem onvifGetVideoEncoderConfiguration_runs
    (h : Runs (onvifGetVideoEncoderConfiguration .debug ep token username password) t (.ok n)) :
    ∃ x, exchanges .getVideoEncoderConfiguration t = [(⟨token⟩, x)] := by
  cases ep with
  | none => cases (runs_stop.mp h).2
  | some ep => exact asked_runs dumpTrtGetVideoEncoderConfigurationResponse h

end Configuration

section Tokens

/-- A `tt:ReferenceToken`: at most 64 characters, in UTF-8. -/
def Admitted (s : CStr) : Prop :=
  ∃ cs : List Char, cs.length ≤ 64 ∧ cs.flatMap String.utf8EncodeChar = s.bytes

def encoderToken (p : TtProfile) : Ptr CStr := p.videoEncoderConfiguration.bind (·.token)

variable {device : TtProfile → Ptr CStr} {stored : TagProfile → CStr}
  {pairs : List (TtProfile × TagProfile)}

structure FieldKept (device : TtProfile → Ptr CStr) (stored : TagProfile → CStr)
    (pairs : List (TtProfile × TagProfile)) : Prop where
  exact : ∀ a ∈ pairs, ∀ s, device a.1 = some s → Admitted s → stored a.2 = s
  distinct : ∀ a ∈ pairs, ∀ b ∈ pairs, ∀ s s', device a.1 = some s → device b.1 = some s' →
    Admitted s → Admitted s' → s ≠ s' → stored a.2 ≠ stored b.2

theorem fieldKept_iff
    (h : ∀ a ∈ pairs, (stored a.2).bytes = ((device a.1).elim [] (·.bytes)).take 64) :
    FieldKept device stored pairs ↔
      ∀ a ∈ pairs, ∀ s, device a.1 = some s → Admitted s → s.length ≤ 64 := by
  constructor
  · intro hk a ha s hs hadm
    have hb := h a ha
    rw [hk.exact a ha s hs hadm, hs, Option.elim_some] at hb
    exact (List.take_eq_self_iff _).mp hb.symm
  · intro hfit
    have hexact : ∀ a ∈ pairs, ∀ s, device a.1 = some s → Admitted s → stored a.2 = s := by
      intro a ha s hs hadm
      apply CStr.ext
      rw [h a ha, hs, Option.elim_some]
      exact List.take_of_length_le (hfit a ha s hs hadm)
    refine ⟨hexact, ?_⟩
    intro a ha b hb s s' hs hs' hadm hadm' hne
    rw [hexact a ha s hs hadm, hexact b hb s' hs' hadm']
    exact hne

/-- What is stored for the profiles, and what the SDK asks for, in its one request, when it is given back. -/
structure TokensKept (pairs : List (TtProfile × TagProfile)) : Prop where
  token : FieldKept (·.token) (·.token.str) pairs
  encoderToken : FieldKept encoderToken (·.venc.token.str) pairs
  streamUri : ∀ a ∈ pairs, ∀ s, a.1.token = some s → Admitted s →
    ∀ ep uri sizeuri username password t r,
      Runs (onvifGetStreamUri .debug ep (some a.2.token.str) (some uri) sizeuri username password) t (.ok r) →
        ∃ e, exchanges .getStreamUri t = [e] ∧ e.1.profileToken = some s
  snapshotUri : ∀ a ∈ pairs, ∀ s, a.1.token = some s → Admitted s →
    ∀ ep uri sizeuri username password t r,
      Runs (onvifGetSnapshotUri .debug ep (some a.2.token.str) (some uri) sizeuri username password) t (.ok r) →
        ∃ e, exchanges .getSnapshotUri t = [e] ∧ e.1.profileToken = some s
  options : ∀ a ∈ pairs, ∀ s, StringCopies.encoderToken a.1 = some s → Admitted s →
    ∀ ep username password t r,
      Runs (onvifGetVideoEncoderConfigurationOptions .debug ep (some a.2.venc.token.str) username password) t
        (.ok r) → ∃ e, exchanges .getVideoEncoderConfigurationOptions t = [e] ∧ e.1.configurationToken = some s
  configuration : ∀ a ∈ pairs, ∀ s, StringCopies.encoderToken a.1 = some s → Admitted s →
    ∀ ep username password t r,
      Runs (onvifGetVideoEncoderConfiguration .debug ep (some a.2.venc.token.str) username password) t
        (.ok r) → ∃ e, exchanges .getVideoEncoderConfiguration t = [e] ∧ e.1.configurationToken = some s
  changed : ∀ a ∈ pairs, ∀ s, StringCopies.encoderToken a.1 = some s → Admitted s →
    ∀ ep username password t r,
      Runs (onvifSetVideoEncoderConfiguration .debug ep (some a.2.venc) username password) t (.ok r) →
        ∃ e, exchanges .getVideoEncoderConfiguration t = [e] ∧ e.1.configurationToken = some s

def TokensFit (rep : TrtGetProfilesResponse) : Prop :=
  ∀ p ∈ rep.profiles.elems, ∀ s, p.token = some s ∨ encoderToken p = some s → Admitted s → s.length ≤ 64

theorem str_of_tokenField {a : CharArray onvifTokenSize} {s : Ptr CStr}
    (h : a.bytes = ProfileCount.tokenField s) : a.str.bytes = (s.elim [] (·.bytes)).take 64 := by
  have ha : a = copied 64 s := CharArray.ext (h.trans (ProfileCount.copied_bytes s).symm)
  rw [ha]
  exact copied_str 64 s

theorem tokensKept_iff {rep : TrtGetProfilesResponse} {ps : List TagProfile}
    (h : List.Forall₂ ProfileCount.Projects rep.profiles.elems ps) :
    TokensKept (rep.profiles.elems.zip ps) ↔ TokensFit rep := by
  have hproj : ∀ a ∈ rep.profiles.elems.zip ps, ProfileCount.Projects a.1 a.2 :=
    fun a ha => List.forall₂_zip h ha
  have htoken := @fieldKept_iff (·.token) (·.token.str) _
    fun a ha => str_of_tokenField (hproj a ha).token
  have hencoder := @fieldKept_iff encoderToken (·.venc.token.str) _
    fun a ha => str_of_tokenField (hproj a ha).encoderToken
  constructor
  · intro hk p hp s hs hadm
    rw [← List.map_fst_zip h.length_eq.le] at hp
    obtain ⟨a, ha, rfl⟩ := List.mem_map.mp hp
    rcases hs with hs | hs
    · exact htoken.mp hk.token a ha s hs hadm
    · exact hencoder.mp hk.encoderToken a ha s hs hadm
  · intro hfit
    have hmem {a : TtProfile × TagProfile} (ha : a ∈ rep.profiles.elems.zip ps) :
        a.1 ∈ rep.profiles.elems := (List.of_mem_zip ha).1
    have ht := htoken.mpr fun a ha s hs hadm => hfit a.1 (hmem ha) s (.inl hs) hadm
    have he := hencoder.mpr fun a ha s hs hadm => hfit a.1 (hmem ha) s (.inr hs) hadm
    refine ⟨ht, he, ?_, ?_, ?_, ?_, ?_⟩
    · intro a ha s hs hadm ep uri sizeuri username password t r hr
      obtain ⟨req, x, hx, hreq, _⟩ := onvifGetStreamUri_runs hr
      exact ⟨_, hx, hreq.trans (congrArg some (ht.exact a ha s hs hadm))⟩
    · intro a ha s hs hadm ep uri sizeuri username password t r hr
      obtain ⟨req, x, hx, hreq, _⟩ := onvifGetSnapshotUri_runs hr
      exact ⟨_, hx, hreq.trans (congrArg some (ht.exact a ha s hs hadm))⟩
    · intro a ha s hs hadm ep username password t r hr
      obtain ⟨x, hx⟩ := onvifGetVideoEncoderConfigurationOptions_runs hr
      exact ⟨_, hx, congrArg some (he.exact a ha s hs hadm)⟩
    · intro a ha s hs hadm ep username password t r hr
      obtain ⟨x, hx⟩ := onvifGetVideoEncoderConfiguration_runs hr
      exact ⟨_, hx, congrArg some (he.exact a ha s hs hadm)⟩
    · intro a ha s hs hadm ep username password t r hr
      obtain ⟨x, hx, _⟩ := SetResolution.onvifSetVideoEncoderConfiguration_runs hr
      exact ⟨_, hx, congrArg some (he.exact a ha s hs hadm)⟩

end Tokens

def XAddrsFit (rep : TdsGetCapabilitiesResponse) : Prop :=
  ∀ s, mediaXAddr rep = some s ∨ eventXAddr rep = some s → 0 < s.length ∧ s.length ≤ 127

theorem xAddrsKept_iff {rep : TdsGetCapabilitiesResponse} :
    Kept (tagCapabilities rep).mediaXAddr (mediaXAddr rep) ∧
      Kept (tagCapabilities rep).eventXAddr (eventXAddr rep) ↔ XAddrsFit rep := by
  have hm : Kept (tagCapabilities rep).mediaXAddr (mediaXAddr rep) ↔
      ∀ s, mediaXAddr rep = some s → 0 < s.length ∧ s.length ≤ 127 := kept_copied_iff
  have he : Kept (tagCapabilities rep).eventXAddr (eventXAddr rep) ↔
      ∀ s, eventXAddr rep = some s → 0 < s.length ∧ s.length ≤ 127 := kept_copied_iff
  rw [hm, he]
  constructor
  · rintro ⟨hm, he⟩ s (hs | hs)
    · exact hm s hs
    · exact he s hs
  · intro h
    exact ⟨fun s hs => h s (.inl hs), fun s hs => h s (.inr hs)⟩

/-- Where the getters keep what the device sent: addresses of 1 to 127 bytes, tokens of at most 64
bytes, and every URI, since one that does not fit is refused. -/
theorem getters_keep_strings_iff (ep username password : Ptr CStr) (t : Trace) (n : ℤ) :
    (∀ capa out,
      Runs (onvifGetCapabilities .debug ep (some capa) username password) t (.ok (n, out)) →
      ∃ x : Exchange TdsGetCapabilitiesResponse, exchanges .getCapabilities t = [({}, x)] ∧
        ((n = 0 → ∃ capa', out = some capa' ∧ Kept capa'.mediaXAddr (mediaXAddr (x.reply {}).rep) ∧
            Kept capa'.eventXAddr (eventXAddr (x.reply {}).rep)) ↔
          (x.Accepted → XAddrsFit (x.reply {}).rep))) ∧
    (∀ before out,
      Runs (onvifGetProfiles .debug ep (some before) username password) t (.ok (n, some out)) →
      ∃ x : Exchange TrtGetProfilesResponse, exchanges .getProfiles t = [({}, x)] ∧
        ((x.Accepted → TokensKept ((x.reply {}).rep.profiles.elems.zip (out.getD []))) ↔
          (x.Accepted → TokensFit (x.reply {}).rep))) ∧
    (∀ token uri sizeuri out,
      Runs (onvifGetStreamUri .debug ep token (some uri) sizeuri username password) t (.ok (n, out)) →
      ∃ req x, exchanges .getStreamUri t = [(req, x)] ∧
        UriReturned x.Accepted (x.reply (Service.zero .getStreamUri)).rep.mediaUri sizeuri n out) ∧
    (∀ token uri sizeuri out,
      Runs (onvifGetSnapshotUri .debug ep token (some uri) sizeuri username password) t (.ok (n, out)) →
      ∃ req x, exchanges .getSnapshotUri t = [(req, x)] ∧
        UriReturned x.Accepted (x.reply (Service.zero .getSnapshotUri)).rep.mediaUri sizeuri n out) := by
  refine ⟨?_, ?_, ?_, ?_⟩
  · intro capa out h
    obtain ⟨x, hx, ⟨ha, rfl, rfl⟩ | ⟨ha, hn, rfl⟩⟩ := onvifGetCapabilities_runs h
    · refine ⟨x, hx, ⟨fun hk _ => ?_, fun hfit _ => ⟨_, rfl, xAddrsKept_iff.mpr (hfit ha)⟩⟩⟩
      obtain ⟨capa', hc, hk⟩ := hk rfl
      obtain rfl := Option.some.inj hc
      exact xAddrsKept_iff.mp hk
    · exact ⟨x, hx, ⟨fun _ ha' => absurd ha' ha, fun _ hn' => absurd hn' hn⟩⟩
  · intro before out h
    obtain ⟨x, profiles, hx, hn, hp, hcases⟩ := ProfileCount.onvifGetProfiles_runs h
    obtain rfl := Option.some.inj hp
    refine ⟨x, hx, ?_⟩
    rcases hcases with ⟨ha, hagree⟩ | ⟨ha, _⟩
    · have hsize : n = ((x.reply {}).rep.profiles.elems.length : ℤ) := hn
      by_cases hpos : n > 0
      · obtain ⟨ps, rfl, _, _, hf⟩ := hagree.array hpos
        rw [Option.getD_some, tokensKept_iff hf]
      · have hnil : (x.reply {}).rep.profiles.elems = [] := List.length_eq_zero_iff.mp (by omega)
        have hzip : (x.reply {}).rep.profiles.elems.zip (out.getD []) =
            (x.reply {}).rep.profiles.elems.zip [] := by rw [hnil]; rfl
        rw [hzip, tokensKept_iff (hnil ▸ .nil)]
    · exact ⟨fun _ ha' => absurd ha' ha, fun _ ha' => absurd ha' ha⟩
  · intro token uri sizeuri out h
    obtain ⟨req, x, hx, _, hr⟩ := onvifGetStreamUri_runs h
    exact ⟨req, x, hx, hr⟩
  · intro token uri sizeuri out h
    obtain ⟨req, x, hx, _, hr⟩ := onvifGetSnapshotUri_runs h
    exact ⟨req, x, hx, hr⟩

def device : Ptr CStr := some (.lit "http://192.168.0.2/onvif/device_service")

def snapshot : CStr := .lit "http://192.168.0.2/snapshot"

def brief (s : Service) : Exchange s.Rep :=
  match s with
  | .getCapabilities => .sent ⟨soapOk, soapOk, none, ⟨some { media := some ⟨media⟩ }⟩⟩
  | .getProfiles => .sent ⟨soapOk, soapOk, none, ⟨⟨[{ token := some (.lit "Profile_1") }], by decide⟩⟩⟩
  | .getStreamUri => .sent ⟨soapOk, soapOk, none, ⟨some { uri := some snapshot }⟩⟩
  | .getSnapshotUri => .sent ⟨soapOk, soapOk, none, ⟨some { uri := some snapshot }⟩⟩
  | s => unreachable s

def briefly {α : Type} (p : Prog α) : Trace × Outcome α := onHost (fun s _ _ _ => brief s) [] p

theorem briefly_runs {α : Type} (p : Prog α) : Runs p (briefly p).1 (briefly p).2 := onHost_runs _ _ _

theorem getters_keep_short_strings :
    (∃ t capa, Runs (onvifGetCapabilities .debug device (some (tagCapabilities {})) (some admin) (some admin)) t
        (.ok (0, some capa)) ∧ Kept capa.mediaXAddr media ∧ Kept capa.eventXAddr none) ∧
    (∃ t ps, Runs (onvifGetProfiles .debug media (some none) (some admin) (some admin)) t
        (.ok (1, some (some ps))) ∧ TokensKept (List.zip [{ token := some (.lit "Profile_1") }] ps)) ∧
    (∃ t out, Runs (onvifGetStreamUri .debug media none (some (filled [] 64)) 64 (some admin) (some admin)) t
        (.ok (0, out)) ∧ cstring out = snapshot) ∧
    ∃ t out, Runs (onvifGetSnapshotUri .debug media none (some (filled [] 64)) 16 (some admin) (some admin)) t
        (.ok (-1, out)) ∧ ¬ ∃ s, Fits (some { uri := some snapshot }) 16 s := by
  refine ⟨⟨_, _, briefly_runs _, ?_⟩, ⟨_, _, briefly_runs _, ?_⟩, ⟨_, _, briefly_runs _, ?_⟩,
    _, _, briefly_runs _, ?_⟩
  · obtain ⟨x, hx, hkept⟩ :=
      (getters_keep_strings_iff device (some admin) (some admin) _ 0).1 (tagCapabilities {}) _ (briefly_runs _)
    obtain rfl : brief .getCapabilities = x := congrArg Prod.snd (List.singleton_inj.mp hx)
    have hfit : XAddrsFit ⟨some { media := some ⟨media⟩ }⟩ := by
      rintro s (hs | hs)
      · obtain rfl := Option.some.inj hs
        decide +kernel
      · cases hs
    obtain ⟨capa, hcapa, hm, he⟩ := hkept.mpr (fun _ => hfit) rfl
    obtain rfl := Option.some.inj hcapa
    exact ⟨hm, he⟩
  · obtain ⟨x, hx, hkept⟩ := (getters_keep_strings_iff media (some admin) (some admin) _ 1).2.1 none _ (briefly_runs _)
    obtain rfl : brief .getProfiles = x := congrArg Prod.snd (List.singleton_inj.mp hx)
    apply hkept.mpr _ ⟨rfl, rfl⟩
    intro _ p hp s hs _
    obtain rfl := List.mem_singleton.mp hp
    rcases hs with hs | hs
    · obtain rfl := Option.some.inj hs
      decide +kernel
    · cases hs
  · obtain ⟨_, x, hx, _, huri⟩ :=
      (getters_keep_strings_iff media (some admin) (some admin) _ 0).2.2.1 none (filled [] 64) 64 _ (briefly_runs _)
    obtain rfl : brief .getStreamUri = x := congrArg Prod.snd (List.singleton_inj.mp hx)
    obtain ⟨s, hs, hout⟩ := huri rfl
    obtain rfl := Option.some.inj hs
    exact hout
  · obtain ⟨_, x, hx, huri, _⟩ :=
      (getters_keep_strings_iff media (some admin) (some admin) _ (-1)).2.2.2 none (filled [] 64) 16 _ (briefly_runs _)
    obtain rfl : brief .getSnapshotUri = x := congrArg Prod.snd (List.singleton_inj.mp hx)
    intro hfits
    have hzero : (-1 : ℤ) = 0 := huri.mpr ⟨⟨rfl, rfl⟩, hfits⟩
    cases hzero

def longToken (last : Char) : CStr :=
  cstring ((List.replicate 32 (Char.ofNat 233) ++ [last]).flatMap String.utf8EncodeChar)

def longXAddr : CStr := cstring (utf8 "http://192.168.0.2/" ++ List.replicate 109 97)

def verbose (s : Service) (_ : Soap) (_ : Ptr CStr) (_ : s.Req) : Exchange s.Rep :=
  match s with
  | .getCapabilities => .sent ⟨soapOk, soapOk, none, ⟨some { media := some ⟨some longXAddr⟩ }⟩⟩
  | .getProfiles => .sent ⟨soapOk, soapOk, none,
      ⟨⟨[{ token := some (longToken 'a') }, { token := some (longToken 'b') }], by simp⟩⟩⟩
  | s => unreachable s

def capabilitiesRun : Trace × Outcome (ℤ × Ptr TagCapabilities) :=
  onHost verbose [] (onvifGetCapabilities .debug device (some (tagCapabilities {})) (some admin)
    (some admin))

theorem capabilitiesRun_runs :
    Runs (onvifGetCapabilities .debug device (some (tagCapabilities {})) (some admin) (some admin))
      capabilitiesRun.1 capabilitiesRun.2 := onHost_runs _ _ _

def profilesRun : Trace × Outcome (ℤ × Ptr (Ptr (List TagProfile))) :=
  onHost verbose [] (onvifGetProfiles .debug device (some none) (some admin) (some admin))

theorem profilesRun_runs :
    Runs (onvifGetProfiles .debug device (some none) (some admin) (some admin)) profilesRun.1
      profilesRun.2 := onHost_runs _ _ _

theorem getters_truncate :
    (∃ t capa, Runs (onvifGetCapabilities .debug device (some (tagCapabilities {})) (some admin)
        (some admin)) t (.ok (0, some capa)) ∧ longXAddr.length = 128 ∧
      capa.mediaXAddr.str.bytes = longXAddr.bytes.take 127 ∧ ¬ Kept capa.mediaXAddr (some longXAddr)) ∧
    ∃ t p q, Runs (onvifGetProfiles .debug device (some none) (some admin) (some admin)) t
        (.ok (2, some (some [p, q]))) ∧
      Admitted (longToken 'a') ∧ Admitted (longToken 'b') ∧ longToken 'a' ≠ longToken 'b' ∧
      p.token.str = q.token.str := by
  have hadm (last : Char) (h : (longToken last).bytes =
      (List.replicate 32 (Char.ofNat 233) ++ [last]).flatMap String.utf8EncodeChar) :
      Admitted (longToken last) := ⟨_, by simp, h.symm⟩
  refine ⟨⟨_, _, capabilitiesRun_runs, by decide +kernel, by decide +kernel, ?_⟩,
    _, _, _, profilesRun_runs, hadm 'a' (by decide +kernel), hadm 'b' (by decide +kernel),
    by decide +kernel, by decide +kernel⟩
  rintro ⟨hk, _⟩
  exact absurd hk (by decide +kernel)

end OnvifSdk.StringCopies
