import OnvifSdk.Comm

namespace OnvifSdk.MakeUri

open Lib Program Gsoap

def Bare (user pass : CStr) : Prop := user.length = 0 ∧ pass.length = 0

instance (user pass : CStr) : Decidable (Bare user pass) := inferInstanceAs (Decidable (_ ∧ _))

/-- The address that `ONVIF_MakeUriWithAuth` is asked for. -/
inductive Built (src user pass : CStr) : CStr → Prop
  | bare (h : Bare user pass) : Built src user pass src
  | inserted (front back : CStr) {uri : CStr} (h : ¬ Bare user pass)
      (hs : SplitsAtFirst slashes src.bytes front.bytes back.bytes)
      (hu : uri.bytes = front.bytes ++ slashes ++ user.bytes ++ [colon] ++ pass.bytes ++ [atSign] ++
        back.bytes) : Built src user pass uri

/-- The room that the size check asks for beyond the address and its terminator. -/
def spare (user pass : CStr) : ℕ := if Bare user pass then 2 else 0

variable {src user pass uri : CStr} {dest : List UInt8} {size : UInt32}

theorem slashes_length : slashes.length = 2 := rfl

theorem Built.unique {uri' : CStr} (h : Built src user pass uri) (h' : Built src user pass uri') :
    uri = uri' := by
  cases h with
  | bare hb =>
    cases h' with
    | bare _ => rfl
    | inserted _ _ hb' _ _ => exact absurd hb hb'
  | inserted front back hb hs hu =>
    cases h' with
    | bare hb' => exact absurd hb' hb
    | inserted front' back' _ hs' hu' =>
      obtain ⟨hfront, hback⟩ := hs.unique hs'
      apply CStr.ext
      rw [hu, hu', hfront, hback]

theorem exists_built_iff :
    (∃ uri, Built src user pass uri) ↔ Bare user pass ∨ slashes <:+: src.bytes := by
  constructor
  · rintro ⟨uri, hb | ⟨_, _, _, hs, _⟩⟩
    · exact .inl hb
    · exact .inr ⟨_, _, hs.split.symm⟩
  · intro h
    by_cases hb : Bare user pass
    · exact ⟨src, .bare hb⟩
    · cases hp : strstr src.bytes slashes with
      | none => exact absurd (h.resolve_left hb) (strstr_eq_none_iff.mp hp)
      | some p =>
        obtain ⟨front, back, _, hs⟩ := splitsAtFirst_of_strstr hp
        have hnul := src.nul_free
        simp only [hs.split, List.mem_append, not_or] at hnul
        refine ⟨⟨_, ?_⟩, .inserted ⟨front, hnul.1.1⟩ ⟨back, hnul.2⟩ hb hs rfl⟩
        simp only [List.mem_append, List.mem_singleton, not_or]
        exact ⟨⟨⟨⟨⟨⟨hnul.1.1, hnul.1.2⟩, user.nul_free⟩, by decide⟩, pass.nul_free⟩, by decide⟩, hnul.2⟩

theorem Built.length (h : Built src user pass uri) :
    uri.length + 1 + spare user pass = src.length + user.length + pass.length + 3 := by
  cases h with
  | bare hb =>
    rw [spare, if_pos hb, hb.1, hb.2]
  | inserted front back hb hs hu =>
    have hsrc := congrArg List.length hs.split
    have huri := congrArg List.length hu
    simp only [List.length_append, List.length_singleton, slashes_length] at hsrc huri
    simp only [spare, if_neg hb, CStr.length]
    omega

theorem size_lt_iff (hlen : src.length + user.length + pass.length + 3 < 2 ^ 32) :
    size < UInt32.ofNat (src.length + user.length + pass.length + 3) ↔
      size.toNat < src.length + user.length + pass.length + 3 := by
  rw [UInt32.lt_iff_toNat_lt, UInt32.toNat_ofNat_of_lt' hlen]

section Buffer

variable (b : Build) (hlen : src.length + user.length + pass.length + 3 < 2 ^ 32)
  (hsize : size.toNat ≤ dest.length)

include hlen hsize

theorem onvifMakeUriWithAuth_refused
    (h : size.toNat < src.length + user.length + pass.length + 3 ∨ ¬ ∃ uri, Built src user pass uri) :
    onvifMakeUriWithAuth b (some src) (some user) (some pass) (some dest) size =
      .ret (-1, filled [] size.toNat ++ dest.drop size.toNat) := by
  simp only [onvifMakeUriWithAuth, soapAssert_some, ret_bind, deref_some, memset_filled hsize, lift_ok,
    size_lt_iff hlen]
  split_ifs with hneed hbare
  · rfl
  · exact absurd ⟨src, .bare hbare⟩ (h.resolve_left hneed)
  · have hnone : strstr src.bytes slashes = none :=
      strstr_eq_none_iff.mpr fun hs => h.resolve_left hneed (exists_built_iff.mpr (.inr hs))
    rw [hnone]

theorem onvifMakeUriWithAuth_inserted {front back : CStr}
    (hfit : src.length + user.length + pass.length + 3 ≤ size.toNat) (hbare : ¬ Bare user pass)
    (hs : SplitsAtFirst slashes src.bytes front.bytes back.bytes)
    (hu : uri.bytes = front.bytes ++ slashes ++ user.bytes ++ [colon] ++ pass.bytes ++ [atSign] ++
      back.bytes) :
    onvifMakeUriWithAuth b (some src) (some user) (some pass) (some dest) size =
      .ret (0, filled uri.bytes size.toNat ++ dest.drop size.toNat) := by
  obtain ⟨before, hbefore⟩ : ∃ before : CStr, before.bytes = front.bytes ++ slashes :=
    ⟨⟨_, by simp [front.nul_free, show (0 : UInt8) ∉ slashes by decide]⟩, rfl⟩
  obtain ⟨info, hinfo⟩ : ∃ info : CStr, info.bytes = user.bytes ++ colon :: pass.bytes ++ [atSign] :=
    ⟨⟨_, by simp [user.nul_free, pass.nul_free, colon, atSign]⟩, rfl⟩
  have hsrc : src.bytes = before.bytes ++ back.bytes := by rw [hbefore, hs.split]
  have hparts : (before.append info).length + back.length < size.toNat := by
    have hb := congrArg List.length hbefore
    have hi := congrArg List.length hinfo
    have hl := congrArg List.length hsrc
    simp only [CStr.length, CStr.append_bytes, List.length_append, List.length_cons,
      List.length_nil] at hb hi hl hfit ⊢
    omega
  have hsum : (before.append info).length = before.length + info.length := List.length_append
  have hneed : ¬ size.toNat < src.length + user.length + pass.length + 3 := Nat.not_lt.mpr hfit
  have hback : cstring ((slashes ++ back.bytes).drop 2) = back := cstring_bytes back
  have hcut : src.bytes.take (src.length - back.length) = before.bytes := by
    have hl : src.length - back.length = before.bytes.length := by
      simp only [CStr.length, hsrc, List.length_append]; omega
    rw [hl, hsrc]
    exact List.take_left
  have hcopy : write (filled [] size.toNat ++ dest.drop size.toNat) 0 before.bytes =
      .ok (filled before.bytes size.toNat ++ dest.drop size.toNat) := by
    apply write_filled
    change 0 + before.length ≤ _
    omega
  have hprinted : user.bytes ++ colon :: pass.bytes ++ [atSign, 0] = info.bytes ++ [0] := by
    rw [hinfo, List.append_assoc _ _ [0]]
    rfl
  have hall : ((before.append info).append back).bytes = uri.bytes := by
    simp [hu, hbefore, hinfo]
  simp only [onvifMakeUriWithAuth, soapAssert_some, ret_bind, deref_some, memset_filled hsize, lift_ok,
    size_lt_iff hlen, if_neg hneed, if_neg (show ¬ (user.length = 0 ∧ pass.length = 0) from hbare),
    hs.strstr_eq, hback, hcut, hcopy, hprinted]
  -- `sprintf` goes on where the copied prefix ends, since the buffer behind it is still cleared
  rw [strlen_filled before (by omega), lift_ok, ret_bind, write_str_filled before info (by omega), lift_ok,
    ret_bind, strcat_filled _ back hparts, hall]
  rfl

theorem onvifMakeUriWithAuth_built
    (hfit : src.length + user.length + pass.length + 3 ≤ size.toNat) (h : Built src user pass uri) :
    onvifMakeUriWithAuth b (some src) (some user) (some pass) (some dest) size =
      .ret (0, filled uri.bytes size.toNat ++ dest.drop size.toNat) := by
  cases h with
  | bare hbare =>
    have hneed : ¬ size.toNat < src.length + user.length + pass.length + 3 := Nat.not_lt.mpr hfit
    simp only [onvifMakeUriWithAuth, soapAssert_some, ret_bind, deref_some, memset_filled hsize, lift_ok,
      size_lt_iff hlen, if_neg hneed, if_pos (show user.length = 0 ∧ pass.length = 0 from hbare),
      strcpy_filled src (show src.length < size.toNat by omega)]
    rfl
  | inserted front back hbare hs hu =>
    exact onvifMakeUriWithAuth_inserted b hlen hsize hfit hbare hs hu

end Buffer

/-- `ONVIF_MakeUriWithAuth` fills its buffer with the address and zeros or with zeros alone, and the
rest of the memory stays as it was. Credentials that are both empty need two more bytes. -/
theorem onvifMakeUriWithAuth_spec (b : Build) (src user pass : CStr) (dest : List UInt8) (size : UInt32)
    (hlen : src.length + user.length + pass.length + 3 < 2 ^ 32) (hsize : size.toNat ≤ dest.length) :
    ∃ n out, onvifMakeUriWithAuth b (some src) (some user) (some pass) (some dest) size =
        .ret (n, out ++ dest.drop size.toNat) ∧ out.length = size.toNat ∧
      (n = 0 ↔ (Bare user pass ∨ slashes <:+: src.bytes) ∧
        ∀ uri, Built src user pass uri → uri.length + 1 + spare user pass ≤ size.toNat) ∧
      (n = 0 → ∃ uri, Built src user pass uri ∧
        out = uri.bytes ++ List.replicate (size.toNat - uri.length) 0) ∧
      (n ≠ 0 → out = List.replicate size.toNat 0) := by
  rw [← exists_built_iff]
  by_cases hfit : (∃ uri, Built src user pass uri) ∧
      src.length + user.length + pass.length + 3 ≤ size.toNat
  · obtain ⟨⟨uri, hb⟩, hfit⟩ := hfit
    have hl := hb.length
    refine ⟨0, filled uri.bytes size.toNat, onvifMakeUriWithAuth_built b hlen hsize hfit hb,
      filled_length (show uri.length ≤ _ by omega), ?_, fun _ => ⟨uri, hb, rfl⟩, fun hn => absurd rfl hn⟩
    refine iff_of_true rfl ⟨⟨uri, hb⟩, ?_⟩
    intro uri' hb'
    rw [hb'.length]
    exact hfit
  · have hrun := onvifMakeUriWithAuth_refused b hlen hsize (by
      rcases not_and_or.mp hfit with hb | hneed
      · exact .inr hb
      · exact .inl (Nat.not_le.mp hneed))
    refine ⟨-1, filled [] size.toNat, hrun, filled_length (Nat.zero_le _), ?_, by simp,
      fun _ => filled_nil _⟩
    refine iff_of_false (by decide) ?_
    rintro ⟨⟨uri, hb⟩, hall⟩
    exact hfit ⟨⟨uri, hb⟩, by rw [← hb.length]; exact hall uri hb⟩

theorem onvifMakeUriWithAuth_spec_for_admin : ∃ out,
    onvifMakeUriWithAuth .debug (some (CStr.lit "rtsp://h")) (some (CStr.lit "admin"))
      (some (CStr.lit "")) (some (List.replicate 17 255)) 16 = .ret (0, out ++ [255]) ∧
    ∃ uri, Built (CStr.lit "rtsp://h") (CStr.lit "admin") (CStr.lit "") uri ∧
      out = uri.bytes ++ List.replicate (16 - uri.length) 0 := by
  obtain ⟨n, out, hrun, -, hzero, hbuilt, -⟩ := onvifMakeUriWithAuth_spec .debug (CStr.lit "rtsp://h")
    (CStr.lit "admin") (CStr.lit "") (List.replicate 17 255) 16 (by decide +kernel) (by decide)
  have hn : n = 0 := by
    apply hzero.mpr
    refine ⟨.inr (by decide +kernel), ?_⟩
    intro uri h
    rw [h.length]
    decide +kernel
  rw [hn] at hrun
  exact ⟨out, hrun, hbuilt hn⟩

theorem onvifMakeUriWithAuth_refuses_bare :
    Built (CStr.lit "rtsp://h") (CStr.lit "") (CStr.lit "") (CStr.lit "rtsp://h") ∧
    (CStr.lit "rtsp://h").length + 1 ≤ (9 : UInt32).toNat ∧
    onvifMakeUriWithAuth .debug (some (CStr.lit "rtsp://h")) (some (CStr.lit ""))
      (some (CStr.lit "")) (some (List.replicate 9 255)) 9 = .ret (-1, List.replicate 9 0) :=
  ⟨.bare (by decide +kernel), by decide +kernel, rfl⟩

end OnvifSdk.MakeUri
