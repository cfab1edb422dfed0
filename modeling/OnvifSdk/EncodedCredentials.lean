import OnvifSdk.Gsoap.Url
import OnvifSdk.UriCredentials

namespace OnvifSdk.EncodedCredentials

open Lib Program Gsoap UriCredentials

/-- What `soap_encode_url_string` makes of a text in memory that reads as `t` before. -/
def encoded (t s : CStr) : CStr := soapEncodeUrlString (some t) (some s)

/-- The size that `soap_encode_url_string` asks for does not overflow. -/
def Sized (s : CStr) : Prop := (3 * s.length + 1 : ℤ) < 2 ^ 31

variable {t t' : CStr}

theorem encoded_bytes {s : CStr} (hs : Sized s) : (encoded t s).bytes = urlEncoded s.bytes :=
  soapEncodeUrlString_bytes t hs

theorem special_encoded {s : CStr} (hs : Sized s) {c : UInt8} (hc : c ∈ special) : c ∉ (encoded t s).bytes := by
  rw [encoded_bytes hs]
  exact fun h => special_urlEncoded h hc

theorem decodePasswd_encoded {pass : CStr} (hs : Sized pass) (rest : CStr) :
    decodePasswd (colon :: ((encoded t' pass).bytes ++ atSign :: rest.bytes)) (atSign :: rest.bytes) =
      (pass, atSign :: rest.bytes) := by
  by_cases hpass : pass.bytes = []
  · have hempty : (encoded t' pass).bytes = [] := by rw [encoded_bytes hs, urlEncoded_eq_nil, hpass]
    have hlit : CStr.lit "" = pass := CStr.ext hpass.symm
    rw [hempty, List.nil_append, decodePasswd_none (by simp), hlit]
  · have hne : (encoded t' pass).bytes ≠ [] := by
      rwa [encoded_bytes hs, Ne, urlEncoded_eq_nil]
    obtain ⟨d, m, hdm⟩ := List.exists_cons_of_ne_nil hne
    have hd : d ≠ atSign := by
      rintro rfl
      exact special_encoded hs (c := atSign) (by decide) (by rw [hdm]; exact List.mem_cons_self)
    have hhead : ((encoded t' pass).bytes ++ atSign :: rest.bytes).head? ≠ some atSign := by
      rw [hdm]
      exact fun h => hd (Option.some.inj h)
    have hlonger : (atSign :: rest.bytes).length < ((encoded t' pass).bytes ++ atSign :: rest.bytes).length := by
      rw [hdm]
      simp only [List.length_append, List.length_cons]
      omega
    have hroom : pass.bytes.length <
        ((encoded t' pass).bytes ++ atSign :: rest.bytes).length - (atSign :: rest.bytes).length + 1 := by
      have := length_le_urlEncoded pass.bytes
      rw [encoded_bytes hs, List.length_append]
      omega
    rw [decodePasswd_text ⟨hhead, hlonger⟩, encoded_bytes hs]
    rw [encoded_bytes hs] at hroom
    rw [soapDecode_urlEncoded (by decide) hpass ⟨atSign, by simp, rfl⟩ hroom, cstring_bytes]

theorem soapUserinfo_encoded {user pass : CStr} (hne : user.bytes ≠ []) (hu : Sized user) (hp : Sized pass)
    (rest : CStr) :
    soapUserinfo true ((encoded t user).bytes ++ colon :: ((encoded t' pass).bytes ++ atSign :: rest.bytes)) =
      .ok (some ⟨some (user, pass), rest.bytes⟩) := by
  have hat : ((encoded t user).bytes ++ colon :: ((encoded t' pass).bytes ++ atSign :: rest.bytes)).dropWhile
      (· ≠ atSign) = atSign :: rest.bytes := by
    have hfront : atSign ∉ (encoded t user).bytes ++ colon :: (encoded t' pass).bytes := by
      simp [special_encoded hu (c := atSign) (by decide), special_encoded hp (c := atSign) (by decide),
        show atSign ≠ colon by decide]
    rw [← List.cons_append, ← List.append_assoc]
    exact dropWhile_to_at hfront
  have hne' : (encoded t user).bytes ≠ [] := by rwa [encoded_bytes hu, Ne, urlEncoded_eq_nil]
  obtain ⟨d, m, hdm⟩ := List.exists_cons_of_ne_nil hne'
  have hd : d ∉ special := fun h => special_encoded hu h (by rw [hdm]; exact List.mem_cons_self)
  have hroom : user.bytes.length < ((encoded t user).bytes ++ colon :: ((encoded t' pass).bytes ++
      atSign :: rest.bytes)).length - (atSign :: rest.bytes).length + 1 := by
    have := length_le_urlEncoded user.bytes
    simp only [encoded_bytes hu, encoded_bytes hp, List.length_append, List.length_cons]
    omega
  apply soapUserinfo_credentials_iff.mpr
  rw [hat]
  refine ⟨nofun, ?_, ?_, colon :: ((encoded t' pass).bytes ++ atSign :: rest.bytes), atSign, ?_, ?_⟩
  · rw [hdm]
    exact fun h => hd (Option.some.inj h ▸ by decide)
  · rw [hdm]
    exact fun h => hd (Option.some.inj h ▸ by decide)
  · rw [encoded_bytes hu] at hroom ⊢
    rw [soapDecode_urlEncoded (by decide) hne ⟨colon, by simp, rfl⟩ hroom, cstring_bytes]
  · exact decodePasswd_encoded hp rest

/-- Behind `soap_encode_url_string`, `ONVIF_MakeUriWithAuth` is undone for all credentials that name a user. -/
theorem encoded_undone (b : Build) (u : BareUri) {user pass : CStr} (hne : user.bytes ≠ []) (hu : Sized user)
    (hp : Sized pass) {dest : List UInt8} {size : UInt32} (hfit : Fits u (encoded t user) (encoded t' pass) dest size) :
    ∃ uri, onvifMakeUriWithAuth b (some u.str) (some (encoded t user)) (some (encoded t' pass)) (some dest) size =
      .ret (0, uri) ∧ Undone u user pass (cstring uri) := by
  have hnamed : ¬ ((encoded t user).length = 0 ∧ (encoded t' pass).length = 0) := by
    intro h
    rw [CStr.length, encoded_bytes hu, List.length_eq_zero_iff, urlEncoded_eq_nil] at h
    exact hne h.1
  obtain ⟨uri, hrun, huri⟩ := onvifMakeUriWithAuth_cstring b u hnamed hfit
  refine ⟨uri, hrun, ?_⟩
  rw [huri]
  exact undone_withAuth u (soapUserinfo_encoded hne hu hp u.rest)

theorem encoded_undone_for_redirect : ∃ uri,
    onvifMakeUriWithAuth .debug (some camera.str) (some (encoded (.lit "stale") (.lit "admin")))
      (some (encoded (.lit "") (.lit "12@10.0.0.9/"))) (some (List.replicate 178 0)) 178 = .ret (0, uri) ∧
    Undone camera (.lit "admin") (.lit "12@10.0.0.9/") (cstring uri) :=
  encoded_undone .debug camera (by decide +kernel) (by unfold Sized; decide +kernel) (by unfold Sized; decide +kernel)
    ⟨by decide +kernel, by decide +kernel⟩

end OnvifSdk.EncodedCredentials
