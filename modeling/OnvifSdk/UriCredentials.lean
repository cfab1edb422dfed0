import OnvifSdk.MakeUri
import OnvifSdk.Gsoap.Endpoint

namespace OnvifSdk.UriCredentials

open Lib Program Gsoap

structure BareUri where
  scheme : CStr
  rest : CStr
  scheme_plain : colon ∉ scheme.bytes ∧ slash ∉ scheme.bytes
  rest_plain : atSign ∉ rest.bytes
  host : rest.bytes ≠ []

def BareUri.front (u : BareUri) : CStr := u.scheme.append (CStr.lit "://")

def BareUri.str (u : BareUri) : CStr := u.front.append u.rest

def userinfo (user pass : CStr) : CStr :=
  (user.append (CStr.lit ":")).append (pass.append (CStr.lit "@"))

def BareUri.withAuth (u : BareUri) (user pass : CStr) : CStr :=
  (u.front.append (userinfo user pass)).append u.rest

theorem lit_scheme_bytes : (CStr.lit "://").bytes = [colon, slash, slash] := rfl

theorem userinfo_bytes (user pass : CStr) :
    (userinfo user pass).bytes = user.bytes ++ colon :: (pass.bytes ++ [atSign]) := by
  have hc : (CStr.lit ":").bytes = [colon] := rfl
  have ha : (CStr.lit "@").bytes = [atSign] := rfl
  simp [userinfo, hc, ha]

theorem withAuth_bytes (u : BareUri) (user pass : CStr) : (u.withAuth user pass).bytes =
    u.front.bytes ++ (user.bytes ++ colon :: (pass.bytes ++ atSign :: u.rest.bytes)) := by
  simp [BareUri.withAuth, userinfo_bytes]

theorem scheme_splitsAtFirst {scheme : List UInt8} (h : slash ∉ scheme) (back : List UInt8) :
    SplitsAtFirst slashes (scheme ++ colon :: slash :: slash :: back) (scheme ++ [colon]) back := by
  have hs : slashes = [slash, slash] := rfl
  induction scheme with
  | nil =>
    have hc : ¬ slashes <+: colon :: slash :: slash :: back := by
      simp [hs, List.cons_prefix_cons, colon, slash]
    exact .cons hc ⟨rfl, fun _ _ _ => Nat.zero_le _⟩
  | cons c scheme ih =>
    have hc : slash ≠ c := fun he => h (he ▸ List.mem_cons_self)
    have hn : ¬ slashes <+: c :: (scheme ++ colon :: slash :: slash :: back) := by
      simp [hs, List.cons_prefix_cons, hc]
    exact .cons hn (ih fun hm => h (List.mem_cons_of_mem _ hm))

theorem built_withAuth (u : BareUri) {user pass : CStr} (hne : ¬ MakeUri.Bare user pass) :
    MakeUri.Built u.str user pass (u.withAuth user pass) := by
  have hc : (CStr.lit ":").bytes = [colon] := rfl
  have hs : slashes = [slash, slash] := rfl
  have hstr : u.str.bytes = u.scheme.bytes ++ colon :: slash :: slash :: u.rest.bytes := by
    rw [BareUri.str, BareUri.front, CStr.append_bytes, CStr.append_bytes, lit_scheme_bytes,
      List.append_assoc]
    rfl
  refine .inserted (u.scheme.append (CStr.lit ":")) u.rest hne ?_ ?_
  · rw [hstr, CStr.append_bytes, hc]
    exact scheme_splitsAtFirst u.scheme_plain.2 u.rest.bytes
  · rw [withAuth_bytes, BareUri.front, CStr.append_bytes, lit_scheme_bytes]
    simp [hc, hs]

theorem withAuth_length (u : BareUri) (user pass : CStr) : (u.withAuth user pass).length =
    u.str.length + user.length + pass.length + 2 := by
  simp only [CStr.length, withAuth_bytes, BareUri.str, CStr.append_bytes, List.length_append,
    List.length_cons]
  omega

theorem onvifMakeUriWithAuth_withAuth (b : Build) (u : BareUri) {user pass : CStr}
    {dest : List UInt8} {size : UInt32} (hne : ¬ (user.length = 0 ∧ pass.length = 0))
    (hfit : u.str.length + user.length + pass.length + 3 ≤ size.toNat)
    (hsize : size.toNat ≤ dest.length) :
    onvifMakeUriWithAuth b (some u.str) (some user) (some pass) (some dest) size =
      .ret (0, filled (u.withAuth user pass).bytes size.toNat ++ dest.drop size.toNat) :=
  MakeUri.onvifMakeUriWithAuth_built b (hfit.trans_lt size.toNat_lt) hsize hfit (built_withAuth u hne)

structure Transparent (user pass : CStr) : Prop where
  named : user.bytes ≠ []
  user : Plain [colon, atSign] user.bytes
  pass : Plain [atSign] pass.bytes

theorem soapUserinfo_credentials_iff {s rest : List UInt8} {user pass : CStr} :
    soapUserinfo true s = .ok (some ⟨some (user, pass), rest⟩) ↔
      s.dropWhile (· ≠ atSign) ≠ [] ∧ s.head? ≠ some colon ∧ s.head? ≠ some atSign ∧
      ∃ s₁ c, soapDecode (s.length - (s.dropWhile (· ≠ atSign)).length + 1) s [colon, atSign] =
          (user, s₁) ∧ decodePasswd s₁ (s.dropWhile (· ≠ atSign)) = (pass, c :: rest) := by
  by_cases hc : s.dropWhile (· ≠ atSign) = [] ∨ s.head? = some colon ∨ s.head? = some atSign
  · constructor
    · intro h
      simp only [soapUserinfo, if_pos hc] at h
      cases Except.ok.inj h
    · rintro ⟨h₁, h₂, h₃, -⟩
      exact (by tauto : False).elim
  · obtain ⟨h₁, h₂, h₃⟩ : s.dropWhile (· ≠ atSign) ≠ [] ∧ s.head? ≠ some colon ∧
      s.head? ≠ some atSign := by tauto
    simp only [soapUserinfo, if_neg hc, ↓reduceIte]
    rcases hd : soapDecode (s.length - (s.dropWhile (· ≠ atSign)).length + 1) s [colon, atSign]
      with ⟨u, s₁⟩
    rcases hp : decodePasswd s₁ (s.dropWhile (· ≠ atSign)) with ⟨p, _ | ⟨c, s₂⟩⟩
    · constructor
      · intro h; simp at h
      · rintro ⟨-, -, -, s₁', c, hd', hp'⟩
        obtain ⟨rfl, rfl⟩ := Prod.mk.inj hd'
        rw [hp] at hp'
        cases (Prod.mk.inj hp').2
    · constructor
      · intro h
        simp only at h
        have hu := Option.some.inj (Except.ok.inj h)
        obtain ⟨hcred, rfl⟩ := Userinfo.mk.inj hu
        obtain ⟨rfl, rfl⟩ := Prod.mk.inj (Option.some.inj hcred)
        exact ⟨h₁, h₂, h₃, s₁, c, rfl, hp⟩
      · rintro ⟨-, -, -, s₁', c', hd', hp'⟩
        obtain ⟨rfl, rfl⟩ := Prod.mk.inj hd'
        rw [hp] at hp'
        obtain ⟨rfl, hs⟩ := Prod.mk.inj hp'
        obtain ⟨rfl, rfl⟩ := List.cons.inj hs
        simp only

theorem dropWhile_to_at {front back : List UInt8} (h : atSign ∉ front) :
    (front ++ atSign :: back).dropWhile (· ≠ atSign) = atSign :: back := by
  rw [List.dropWhile_append_of_pos]
  · simp
  · intro c hc
    have hne : c ≠ atSign := fun he => h (he ▸ hc)
    simpa using hne

section Userinfo

variable {user pass rest : CStr}

theorem Transparent.soapUserinfo_eq (h : Transparent user pass) (rest : CStr) :
    soapUserinfo true (user.bytes ++ colon :: (pass.bytes ++ atSign :: rest.bytes)) =
      .ok (some ⟨some (user, pass), rest.bytes⟩) := by
  have hu : atSign ∉ user.bytes := fun hm => (h.user.text _ hm).1 (by simp)
  have hp : atSign ∉ pass.bytes := fun hm => (h.pass.text _ hm).1 (by simp)
  have hat : (user.bytes ++ colon :: (pass.bytes ++ atSign :: rest.bytes)).dropWhile (· ≠ atSign) =
      atSign :: rest.bytes := by
    have hfront : atSign ∉ user.bytes ++ colon :: pass.bytes := by
      simp [hu, hp, show atSign ≠ colon by decide]
    simpa using dropWhile_to_at hfront
  obtain ⟨c, user', huser⟩ := List.exists_cons_of_ne_nil h.named
  have hc : c ∉ [colon, atSign] := (h.user.text c (by simp [huser])).1
  apply soapUserinfo_credentials_iff.mpr
  rw [hat]
  refine ⟨nofun, ?_, ?_, colon :: (pass.bytes ++ atSign :: rest.bytes), atSign, ?_, ?_⟩
  · intro hh; simp [huser] at hh; simp [hh] at hc
  · intro hh; simp [huser] at hh; simp [hh] at hc
  · rw [soapDecode_plain h.user h.named ⟨colon, by simp, rfl⟩, cstring_bytes]
    simp only [List.length_append, List.length_cons]; omega
  · by_cases hpass : pass.bytes = []
    · have hlit : CStr.lit "" = pass := CStr.ext hpass.symm
      rw [hpass, List.nil_append, decodePasswd_none (by simp), hlit]
    · obtain ⟨d, pass', hd⟩ := List.exists_cons_of_ne_nil hpass
      have hne : (pass.bytes ++ atSign :: rest.bytes).head? ≠ some atSign := by
        intro hh
        simp [hd] at hh
        exact hp (by simp [hd, hh])
      have hlt : (atSign :: rest.bytes).length < (pass.bytes ++ atSign :: rest.bytes).length := by
        simp only [hd, List.length_append, List.length_cons]; omega
      rw [decodePasswd_text ⟨hne, hlt⟩, soapDecode_plain h.pass hpass ⟨atSign, by simp, rfl⟩,
        cstring_bytes]
      simp only [List.length_append, List.length_cons]; omega

theorem soapUserinfo_transparent (hrest : rest.bytes ≠ [])
    (h : soapUserinfo true (user.bytes ++ colon :: (pass.bytes ++ atSign :: rest.bytes)) =
      .ok (some ⟨some (user, pass), rest.bytes⟩)) : Transparent user pass := by
  obtain ⟨-, hcolon, hat, s₁, c, hd, hp⟩ := soapUserinfo_credentials_iff.mp h
  have hlast : 1 ≤ rest.bytes.length := List.length_pos_iff.mpr hrest
  have hnul : 0 ∉ user.bytes ++ colon :: (pass.bytes ++ atSign :: rest.bytes) := by
    simp [user.nul_free, pass.nul_free, rest.nul_free, show (0 : UInt8) ≠ colon by decide,
      show (0 : UInt8) ≠ atSign by decide]
  have hnamed : user.bytes ≠ [] := fun hn => hcolon (by simp [hn])
  have hu : user.length = user.bytes.length := rfl
  have hp' : pass.length = pass.bytes.length := rfl
  have hl : (user.bytes ++ colon :: (pass.bytes ++ atSign :: rest.bytes)).length =
      user.length + (pass.length + (rest.bytes.length + 1) + 1) := by
    simp only [List.length_append, List.length_cons, hu, hp']
  have huser := soapDecode_length hnul hd
  have hsuffix := soapDecode_suffix hnul hd
  by_cases hs : s₁.head? = some colon
  · obtain ⟨m, rfl⟩ := List.head?_eq_some_iff.mp hs
    rw [hl, List.length_cons] at huser
    by_cases hm : m.head? ≠ some atSign ∧
        ((user.bytes ++ colon :: (pass.bytes ++ atSign :: rest.bytes)).dropWhile
          (· ≠ atSign)).length < m.length
    · rw [decodePasswd_text hm] at hp
      have hnul₁ : 0 ∉ m := fun h0 => hnul (hsuffix.subset (List.mem_cons_of_mem _ h0))
      have hpass := soapDecode_length hnul₁ hp
      rw [List.length_cons] at hpass
      have huser' := soapDecode_exact hnul hd (by rw [List.length_cons]; omega)
        (by rw [hl, List.length_cons]; omega)
      have hpass' := soapDecode_exact hnul₁ hp (by rw [List.length_cons]; omega)
        (by rw [List.length_cons]; omega)
      exact ⟨hnamed, huser'.2, hpass'.2⟩
    · rw [decodePasswd_none hm] at hp
      obtain ⟨rfl, rfl⟩ := Prod.mk.inj hp
      have hempty : (CStr.lit "").bytes = [] := rfl
      have hzero : (CStr.lit "").length = 0 := rfl
      have huser' := soapDecode_exact hnul hd (by simp only [List.length_cons]; omega)
        (by rw [hl, hzero]; simp only [List.length_cons]; omega)
      exact ⟨hnamed, huser'.2, ⟨by simp [hempty], by simp [hempty]⟩⟩
  · rw [decodePasswd_of_ne hs] at hp
    obtain ⟨rfl, rfl⟩ := Prod.mk.inj hp
    have hempty : (CStr.lit "").bytes = [] := rfl
    rw [hempty, List.nil_append] at hd hnul hsuffix hat hcolon
    have hc : c :: rest.bytes = atSign :: rest.bytes := by
      obtain ⟨front, hfront⟩ := hsuffix
      have hsame : front ++ c :: rest.bytes = (user.bytes ++ [colon]) ++ atSign :: rest.bytes := by
        simpa using hfront
      exact List.append_inj_right' hsame rfl
    rw [hc] at hd
    refine absurd hd (soapDecode_stops hnul (by simp only [List.length_cons]; omega) (by simp) ?_)
    intro d hd' hmem
    rcases List.mem_cons.mp hmem with rfl | hmem
    · exact hcolon hd'
    · exact hat (List.mem_singleton.mp hmem ▸ hd')

end Userinfo

theorem afterScheme_front (u : BareUri) (s : List UInt8) :
    afterScheme (u.front.bytes ++ s) = s := by
  have hd : (u.front.bytes ++ s).dropWhile (· ≠ colon) = colon :: slash :: slash :: s := by
    rw [BareUri.front, CStr.append_bytes, lit_scheme_bytes, List.append_assoc,
      List.dropWhile_append_of_pos]
    · simp
    · intro c hc
      have hne : c ≠ colon := fun he => u.scheme_plain.1 (he ▸ hc)
      simpa using hne
  have hp : [colon, slash, slash] <+: colon :: slash :: slash :: s := ⟨s, rfl⟩
  simp only [afterScheme, hd, if_pos hp, List.drop_succ_cons, List.drop_zero]

theorem isHttps_front (u : BareUri) (s s' : List UInt8) :
    isHttps (u.front.bytes ++ s) = isHttps (u.front.bytes ++ s') := by
  have hh : utf8 "https:" = [104, 116, 116, 112, 115, 58] := rfl
  have hf : u.front.bytes = u.scheme.bytes ++ [colon, slash, slash] := rfl
  rw [hf]
  rcases u.scheme.bytes with _ | ⟨a, _ | ⟨b, _ | ⟨c, scheme⟩⟩⟩
  · simp [isHttps, hh, toLower, colon]
  · simp [isHttps, hh, toLower, colon]
  · simp [isHttps, hh, toLower, colon]
  · have htake : ∀ m : List UInt8, (a :: b :: c :: scheme ++ [colon, slash, slash] ++ m).take 6 =
        (a :: b :: c :: scheme ++ [colon, slash, slash]).take 6 := by
      intro m
      apply List.take_append_of_le_length
      simp only [List.length_append, List.length_cons]; omega
    rw [isHttps, isHttps, htake, htake]

theorem soapSetHost_congr {a a' : Address} (hport : a.port = a'.port) (hpath : a.path = a'.path)
    (hhost : a.overrideHost = a'.overrideHost) (hoport : a.overridePort = a'.overridePort)
    (s : List UInt8) : (soapSetHost a s).host = (soapSetHost a' s).host ∧
      (soapSetHost a s).port = (soapSetHost a' s).port ∧
      (soapSetHost a s).path = (soapSetHost a' s).path := by
  simp only [soapSetHost, hport, hpath, hhost, hoport, and_self]

structure SameAddress (a a' : Address) : Prop where
  endpoint : a.endpoint = a'.endpoint
  host : a.host = a'.host
  port : a.port = a'.port
  path : a.path = a'.path

theorem withAuth_front (u : BareUri) (user pass : CStr) :
    (u.withAuth user pass).length - (afterScheme (u.withAuth user pass).bytes).length =
      u.front.bytes.length := by
  simp only [CStr.length, withAuth_bytes, afterScheme_front, List.length_append]
  omega

theorem soapSetEndpoint_withAuth (u : BareUri) {user pass user' pass' : CStr}
    (hu : soapUserinfo true (user.bytes ++ colon :: (pass.bytes ++ atSign :: u.rest.bytes)) =
      .ok (some ⟨some (user', pass'), u.rest.bytes⟩)) (hn : u.front.length < soapTagLen) (soap : Address) :
    soapSetEndpoint true soap (some (u.withAuth user pass)) =
      .ok (soapSetHost ((soap.enter (u.withAuth user pass)).leave (u.withAuth user pass)
        u.front.length ⟨some (user', pass'), u.rest.bytes⟩) u.rest.bytes) := by
  have hne : (u.withAuth user pass).bytes ≠ [] := by simp [withAuth_bytes]
  have hl : ¬ soapTagLen ≤ u.front.bytes.length := Nat.not_le.mpr hn
  simp only [soapSetEndpoint, if_neg hne, withAuth_front]
  simp only [withAuth_bytes, afterScheme_front, hu, if_neg hl]
  rfl

theorem soapSetEndpoint_bare (u : BareUri) (soap : Address) :
    soapSetEndpoint true soap (some u.str) =
      .ok (soapSetHost (soap.enter u.str) u.rest.bytes) := by
  have hne : u.str.bytes ≠ [] := by simp [BareUri.str, BareUri.front, lit_scheme_bytes]
  have hat : u.rest.bytes.dropWhile (· ≠ atSign) = [] := by
    apply List.dropWhile_eq_nil_iff.mpr
    intro c hc
    have hne : c ≠ atSign := fun he => u.rest_plain (he ▸ hc)
    simpa using hne
  have hu : soapUserinfo true u.rest.bytes = .ok none := by
    simp only [soapUserinfo, hat, true_or, ↓reduceIte]
  have hs : afterScheme u.str.bytes = u.rest.bytes := afterScheme_front u u.rest.bytes
  simp only [soapSetEndpoint, if_neg hne, hs, hu]

theorem sameAddress_withAuth (u : BareUri) {user pass user' pass' : CStr}
    (hu : soapUserinfo true (user.bytes ++ colon :: (pass.bytes ++ atSign :: u.rest.bytes)) =
      .ok (some ⟨some (user', pass'), u.rest.bytes⟩)) (hn : u.front.length < soapTagLen) (soap : Address) :
    ∃ a a', soapSetEndpoint true soap (some (u.withAuth user pass)) = .ok a ∧
      soapSetEndpoint true soap (some u.str) = .ok a' ∧
      a.userid = some user' ∧ a.passwd = some pass' ∧ SameAddress a a' := by
  refine ⟨_, _, soapSetEndpoint_withAuth u hu hn soap, soapSetEndpoint_bare u soap, rfl, rfl, ?_⟩
  have hport : ((soap.enter (u.withAuth user pass)).leave (u.withAuth user pass) u.front.length
      ⟨some (user', pass'), u.rest.bytes⟩).port = (soap.enter u.str).port := by
    have hs : isHttps (u.withAuth user pass).bytes = isHttps u.str.bytes := by
      rw [withAuth_bytes]
      exact isHttps_front u _ _
    simp only [Address.leave, Address.enter, hs]
  obtain ⟨hhost, hport', hpath⟩ := soapSetHost_congr hport rfl rfl rfl u.rest.bytes
  refine ⟨?_, hhost, hport', hpath⟩
  have hcut : (u.withAuth user pass).bytes.take u.front.length ++
      u.rest.bytes.take (soapTagLen - u.front.length - 1) = u.str.bytes.take (soapTagLen - 1) := by
    have hl : u.front.bytes.length ≤ soapTagLen - 1 := Nat.le_sub_one_of_lt hn
    have hleft : (u.withAuth user pass).bytes.take u.front.length = u.front.bytes := by
      rw [withAuth_bytes]
      exact List.take_left
    rw [hleft, BareUri.str, CStr.append_bytes, List.take_append, List.take_of_length_le hl,
      Nat.sub_right_comm]
    rfl
  exact congrArg cstring hcut

/-- `uri` is undone by the endpoint parser: it hands back the credentials, what stays is the address
without them, and a client connects where that address says, as far as its buffers go. -/
structure Undone (u : BareUri) (user pass uri : CStr) : Prop where
  split : ∃ rest, soapUserinfo true (afterScheme uri.bytes) = .ok (some ⟨some (user, pass), rest⟩) ∧
    uri.bytes.take (uri.length - (afterScheme uri.bytes).length) ++ rest = u.str.bytes
  address : u.front.length < soapTagLen → ∀ soap, ∃ a a',
    soapSetEndpoint true soap (some uri) = .ok a ∧ soapSetEndpoint true soap (some u.str) = .ok a' ∧
      a.userid = some user ∧ a.passwd = some pass ∧ SameAddress a a'

theorem undone_withAuth (u : BareUri) {user pass user' pass' : CStr}
    (hu : soapUserinfo true (user.bytes ++ colon :: (pass.bytes ++ atSign :: u.rest.bytes)) =
      .ok (some ⟨some (user', pass'), u.rest.bytes⟩)) : Undone u user' pass' (u.withAuth user pass) := by
  refine ⟨⟨u.rest.bytes, ?_, ?_⟩, fun hn soap => sameAddress_withAuth u hu hn soap⟩
  · rw [withAuth_bytes, afterScheme_front]
    exact hu
  · rw [withAuth_front, withAuth_bytes, List.take_left, BareUri.str, CStr.append_bytes]

theorem undone_iff (u : BareUri) (user pass : CStr) :
    Undone u user pass (u.withAuth user pass) ↔ Transparent user pass := by
  constructor
  · rintro ⟨⟨rest, hsplit, hleft⟩, -⟩
    have hrest : rest = u.rest.bytes := by
      rw [withAuth_front, withAuth_bytes, List.take_left, BareUri.str, CStr.append_bytes] at hleft
      exact List.append_cancel_left hleft
    rw [withAuth_bytes, afterScheme_front, hrest] at hsplit
    exact soapUserinfo_transparent u.host hsplit
  · intro h
    exact undone_withAuth u (h.soapUserinfo_eq u.rest)

theorem Undone.inj {u : BareUri} {user pass user' pass' uri : CStr} (h : Undone u user pass uri)
    (h' : Undone u user' pass' uri) : user = user' ∧ pass = pass' := by
  obtain ⟨rest, hs, -⟩ := h.split
  obtain ⟨rest', hs', -⟩ := h'.split
  have heq := Option.some.inj (Except.ok.inj (hs.symm.trans hs'))
  exact Prod.mk.inj (Option.some.inj (Userinfo.mk.inj heq).1)

def Fits (u : BareUri) (user pass : CStr) (dest : List UInt8) (size : UInt32) : Prop :=
  u.str.length + user.length + pass.length + 3 ≤ size.toNat ∧ size.toNat ≤ dest.length

theorem onvifMakeUriWithAuth_cstring (b : Build) (u : BareUri) {user pass : CStr}
    {dest : List UInt8} {size : UInt32} (hne : ¬ (user.length = 0 ∧ pass.length = 0))
    (hfit : Fits u user pass dest size) : ∃ uri,
      onvifMakeUriWithAuth b (some u.str) (some user) (some pass) (some dest) size = .ret (0, uri) ∧
        cstring uri = u.withAuth user pass := by
  refine ⟨_, onvifMakeUriWithAuth_withAuth b u hne hfit.1 hfit.2, ?_⟩
  apply cstring_filled
  have hl := withAuth_length u user pass
  have hf := hfit.1
  omega

/-- The parser undoes `ONVIF_MakeUriWithAuth` exactly for the credentials that need no encoding,
and no two such pairs make the same address. -/
theorem onvifMakeUriWithAuth_undone_iff (b : Build) (u : BareUri) (user pass : CStr)
    (dest : List UInt8) (size : UInt32) (hne : ¬ (user.length = 0 ∧ pass.length = 0))
    (hfit : Fits u user pass dest size) : ∃ uri,
      onvifMakeUriWithAuth b (some u.str) (some user) (some pass) (some dest) size = .ret (0, uri) ∧
      (Undone u user pass (cstring uri) ↔ Transparent user pass) ∧
      ∀ user' pass' dest' size' uri', Transparent user pass → Transparent user' pass' →
        Fits u user' pass' dest' size' →
        onvifMakeUriWithAuth b (some u.str) (some user') (some pass') (some dest') size' =
          .ret (0, uri') → cstring uri' = cstring uri → user' = user ∧ pass' = pass := by
  obtain ⟨uri, hrun, huri⟩ := onvifMakeUriWithAuth_cstring b u hne hfit
  refine ⟨uri, hrun, by rw [huri]; exact undone_iff u user pass, ?_⟩
  intro user' pass' dest' size' uri' h h' hfit' hrun' hsame
  have hne' : ¬ (user'.length = 0 ∧ pass'.length = 0) :=
    fun hz => h'.named (List.length_eq_zero_iff.mp hz.1)
  obtain ⟨uri₂, hrun₂, huri₂⟩ := onvifMakeUriWithAuth_cstring b u hne' hfit'
  have hu : uri' = uri₂ := by
    rw [hrun₂] at hrun'
    exact ((Prod.mk.inj (Program.ret.inj hrun')).2).symm
  have hd : Undone u user pass (cstring uri) := by rw [huri]; exact (undone_iff u user pass).mpr h
  have hd' : Undone u user' pass' (cstring uri) := by
    rw [← hsame, hu, huri₂]; exact (undone_iff u user' pass').mpr h'
  exact hd'.inj hd

def camera : BareUri where
  scheme := CStr.lit "http"
  rest := CStr.lit "192.168.0.2/snapshot"
  scheme_plain := by decide +kernel
  rest_plain := by decide +kernel
  host := by decide +kernel

theorem onvifMakeUriWithAuth_undone_for_admin : ∃ uri,
    onvifMakeUriWithAuth .debug (some camera.str) (some (CStr.lit "admin")) (some (CStr.lit "12345"))
      (some (List.replicate 178 0)) 178 = .ret (0, uri) ∧
    Undone camera (CStr.lit "admin") (CStr.lit "12345") (cstring uri) := by
  obtain ⟨uri, hrun, hundone, -⟩ := onvifMakeUriWithAuth_undone_iff .debug camera (CStr.lit "admin")
    (CStr.lit "12345") (List.replicate 178 0) 178 (by decide +kernel)
    ⟨by decide +kernel, by decide +kernel⟩
  have hplain : Transparent (CStr.lit "admin") (CStr.lit "12345") := by
    refine ⟨by decide +kernel, ⟨by decide +kernel, ?_⟩, ⟨by decide +kernel, ?_⟩⟩
    · intro c hc
      obtain rfl : (97 : UInt8) = c := Option.some.inj hc
      decide
    · intro c hc
      obtain rfl : (49 : UInt8) = c := Option.some.inj hc
      decide
  exact ⟨uri, hrun, hundone.mpr hplain⟩

theorem onvifMakeUriWithAuth_redirects : ∃ uri a,
    onvifMakeUriWithAuth .debug (some camera.str) (some (CStr.lit "admin"))
      (some (CStr.lit "12@10.0.0.9/")) (some (List.replicate 178 0)) 178 = .ret (0, uri) ∧
    soapSetEndpoint true { endpoint := CStr.lit "", host := CStr.lit "", path := CStr.lit "", port := 0 }
      (some (cstring uri)) = .ok a ∧
    a.host = CStr.lit "10.0.0.9" ∧ a.passwd = some (CStr.lit "12") ∧
    ¬ Undone camera (CStr.lit "admin") (CStr.lit "12@10.0.0.9/") (cstring uri) := by
  have hfit : Fits camera (CStr.lit "admin") (CStr.lit "12@10.0.0.9/") (List.replicate 178 0) 178 :=
    ⟨by decide +kernel, by decide +kernel⟩
  obtain ⟨uri, hrun, huri⟩ := onvifMakeUriWithAuth_cstring .debug camera (by decide +kernel) hfit
  refine ⟨uri, ?_⟩
  rw [huri]
  refine ⟨_, hrun, rfl, ?_, ?_, ?_⟩
  · decide +kernel
  · decide +kernel
  · intro h
    have hp := ((undone_iff camera _ _).mp h).pass.text atSign (by decide +kernel)
    exact hp.1 (by decide)

end OnvifSdk.UriCredentials
