import OnvifSdk.Host
import OnvifSdk.PasswordCheck
import OnvifSdk.UsernameToken

namespace OnvifSdk.DigestExchange

open Lib Program Gsoap PasswordCheck UsernameToken

section Client

variable (created : CStr)

def Shown : (o : Op) → o.Ans → Prop
  | .soapDateTime2s, x => x = created
  | _, _ => True

def Dated : Op → Prop
  | .calcDigest c _ _ => c = created
  | _ => True

variable {created} {α β : Type}

abbrev KeepsDate (created : CStr) (p : Prog α) : Prop := p.Meets (Shown created) (Dated created) fun _ => True

theorem KeepsDate.bind {p : Prog α} {f : α → Prog β} (h : KeepsDate created p) (hf : ∀ a, KeepsDate created (f a)) :
    KeepsDate created (p >>= f) := Meets.bind_any h hf fun _ => trivial

theorem keepsDate {p : Prog α} (h : KeepsTo (Dated created) p) : KeepsDate created p := h.meets fun _ ho => ho

theorem soapWsseAddUsernameTokenDigest_date (soap : Soap) (id username password : Ptr CStr) :
    KeepsDate created (soapWsseAddUsernameTokenDigest soap id username password) := by
  have hP : ∀ n, Dated created (.soapMalloc n) := fun _ => trivial
  apply (keepsDate (soapWsseAddSecurity_keepsTo hP soap)).bind
  rintro ⟨found, soap⟩
  refine ⟨trivial, ?_⟩
  rintro _ rfl
  refine ⟨trivial, fun nonce _ => ?_⟩
  apply (keepsDate (soapS2base64New_keepsTo hP soap _)).bind
  rintro ⟨nonceBase64, soap⟩
  apply (keepsDate (deref_keepsTo password)).bind
  intro password
  refine ⟨rfl, fun ha _ => ?_⟩
  apply keepsDate
  apply (soapWsseAddUsernameTokenText_keepsTo hP _ id username _).bind
  rintro ⟨_, soap⟩
  apply (deref_keepsTo _).bind
  intro security
  apply (deref_keepsTo _).bind
  intro token
  apply (deref_keepsTo _).bind
  intro password
  apply (soapMalloc_keepsTo hP soap _).bind
  rintro ⟨found, soap⟩
  cases found with
  | false => trivial
  | true => exact (soapStrdup_keepsTo hP soap _).bind fun _ => trivial

theorem onvifSetAuthInfo_date (b : Build) (soap : Ptr Soap) (username password : Ptr CStr) :
    KeepsDate created (onvifSetAuthInfo b soap username password) := by
  apply (keepsDate (soapAssert_keepsTo b _)).bind
  intro _
  apply (keepsDate (soapAssert_keepsTo b _)).bind
  intro _
  apply (keepsDate (deref_keepsTo soap)).bind
  intro soap
  apply (soapWsseAddUsernameTokenDigest_date soap none username password).bind
  exact fun _ => trivial

end Client

section Token

theorem soapS2base64_length (s : List UInt8) : (soapS2base64 s).length = (s.length + 2) / 3 * 4 := by
  induction s using soapS2base64.induct with
  | case1 => rfl
  | case2 a => simp [soapS2base64]
  | case3 a b => simp [soapS2base64]
  | case4 a b c s ih =>
    simp only [soapS2base64, List.length_cons, ih]
    omega

theorem base64_length (s : List UInt8) : (base64 s).length = (s.length + 2) / 3 * 4 := soapS2base64_length s

theorem suppliedDigest_base64 (ha stack : SmdSha1) : suppliedDigest (base64 ha.toList) stack = ha := by
  have hlen : ha.toList.length = 20 := ha.length_toList
  have hd : soapBase642s 20 (base64 ha.toList) = { bytes := ha.toList } := soapBase642s_base64 _ hlen.le
  simp only [suppliedDigest, hd, hlen, lt_irrefl, and_false, ↓reduceIte, List.append_nil]
  ext i hi
  simp

theorem nonceBytes_base64 (nonce : WsseNonce) :
    nonceBytes { item := some (base64 nonce.toList), encodingType := some wsseBase64BinaryURI } = nonce.toList := by
  have hlen : nonce.toList.length = 20 := nonce.length_toList
  have hroom : nonce.toList.length ≤ base64Room (base64 nonce.toList) := by
    rw [base64Room, base64_length]
    omega
  have henc : some wsseBase64BinaryURI ≠ some wsseHexBinaryURI := by decide +kernel
  simp only [nonceBytes, henc, ↓reduceIte, soapBase642s_base64 _ hroom]

end Token

theorem madeAt_soapDateTime2s (P : Platform) {made : ℕ} (h : (gmtime made).year + 1900 < 2 ^ 31) :
    madeAt P (some (soapDateTime2s made)) = .ok made := by
  rw [madeAt, soapS2dateTime_soapDateTime2s h]
  rfl

/-- A context whose token is the one that `ONVIF_SetAuthInfo` makes of these parts. -/
def Bears (s : Soap) (u created : CStr) (nonce : WsseNonce) (ha : SmdSha1) : Prop :=
  soapWsseUsernameToken s none = some (digestToken u created nonce ha)

theorem Bears.digest {s : Soap} {u created : CStr} {nonce : WsseNonce} {ha : SmdSha1} (h : Bears s u created nonce ha) :
    HasDigest s { item := some (base64 nonce.toList), encodingType := some wsseBase64BinaryURI } created
      (base64 ha.toList) :=
  ⟨_, _, h, rfl, rfl, rfl, rfl, rfl⟩

theorem Bears.accepted_iff {P : Platform} {s : Soap} {u q : CStr} {made : ℕ} {nonce : WsseNonce} {ha : SmdSha1}
    (h : Bears s u (soapDateTime2s made) nonce ha) (hyear : (gmtime made).year + 1900 < 2 ^ 31)
    {t : PasswordCheck.Trace} {r : Outcome Verdict} (hcheck : Runs (soapWsseVerifyPassword P s q) t r)
    (hfav : ∀ e ∈ t, Favourable made (base64 nonce.toList) e.1 e.2) :
    Accepted r ↔ calcDigest P (soapDateTime2s made) nonce.toList q = ha := by
  constructor
  · rintro ⟨v, rfl, hv⟩
    rcases password_runs hcheck hv with htext | ⟨nonce', created, item, stack, hdigest, _, _, heq, _⟩
    · obtain ⟨token, supplied, ht, hp, htype, _⟩ := htext
      obtain rfl := Option.some.inj (ht.symm.trans h)
      obtain rfl := Option.some.inj hp
      exact absurd rfl htype
    · obtain ⟨token, supplied, ht, hp, _, hi, hn, hc⟩ := hdigest
      obtain rfl := Option.some.inj (ht.symm.trans h)
      obtain rfl := Option.some.inj hp
      obtain rfl := Option.some.inj hi
      obtain rfl := Option.some.inj hn
      obtain rfl := Option.some.inj hc
      rwa [nonceBytes_base64, suppliedDigest_base64] at heq
  · intro heq
    have hlen : (base64 ha.toList).length = 28 := (base64_length ha.toList).trans (by rw [ha.length_toList])
    have hset : Settles made (base64 nonce.toList) (soapWsseVerifyPassword P s q) Accepted := by
      apply password_settles h.digest hlen (madeAt_soapDateTime2s P hyear) rfl (.inr (.inl rfl))
      intro stack
      rw [nonceBytes_base64, suppliedDigest_base64, heq]
    exact (hset.runs hcheck hfav).2

theorem onvifSetAuthInfo_bears {c c' : Soap} {u p created : CStr} {t : Gsoap.Trace}
    (h : Runs (onvifSetAuthInfo .debug (some c) (some u) (some p)) t (.ok (soapOk, some c')))
    (hdate : ∀ x, ⟨.soapDateTime2s, x⟩ ∈ t → x = created) {s : Soap} (hs : s.header = c'.header) :
    ∃ nonce ha, ⟨.calcDigest created nonce p, (ha, soapOk)⟩ ∈ t ∧ Bears s u created nonce ha := by
  rcases onvifSetAuthInfo_runs h with ⟨hr, _⟩ | ⟨n, c₁, hr, _, hn, token, hheader, hsigned⟩
  · cases hr
  · cases hr
    obtain ⟨made, nonce, ha, hmem, rfl⟩ := hsigned (hn.mp rfl).2
    have hshown : ∀ e ∈ t, Shown created e.1 e.2 := by
      rintro ⟨o, x⟩ he
      cases o <;> first | trivial | exact hdate x he
    obtain rfl : made = created := ((onvifSetAuthInfo_date .debug _ _ _).runs h hshown).1 _ hmem
    refine ⟨nonce, ha, hmem, ?_⟩
    simp [Bears, soapWsseUsernameToken, Soap.security, hs, hheader, secured]

def tokenNonce (s : Soap) : Ptr CStr := ((soapWsseUsernameToken s none).bind (·.nonce)).bind (·.item)

/-- What the SDK puts into a request is accepted for the password it was made with, and for another
one exactly where the digests over the nonce of the request collide. -/
theorem exchanged_accepted {P : Platform} {c c' : Soap} {u p q : CStr} {made : ℕ} {t : Gsoap.Trace}
    (hsent : Runs (onvifSetAuthInfo .debug (some c) (some u) (some p)) t (.ok (soapOk, some c')))
    (hdate : ∀ x, ⟨.soapDateTime2s, x⟩ ∈ t → x = soapDateTime2s made)
    (hyear : (gmtime made).year + 1900 < 2 ^ 31)
    (hsha : ∀ created nonce pw x, ⟨.calcDigest created nonce pw, x⟩ ∈ t → x.1 = calcDigest P created nonce.toList pw)
    {s : Soap} (hs : s.header = c'.header) {t' : PasswordCheck.Trace} {r : Outcome Verdict}
    (hcheck : Runs (soapWsseVerifyPassword P s q) t' r)
    (hfav : ∀ n, tokenNonce s = some n → ∀ e ∈ t', Favourable made n e.1 e.2) :
    (soapWsseGetUsername s).1 = some u ∧
      ∃ nonce : WsseNonce, tokenNonce s = some (base64 nonce.toList) ∧ (Accepted r ↔
        calcDigest P (soapDateTime2s made) nonce.toList q = calcDigest P (soapDateTime2s made) nonce.toList p) := by
  obtain ⟨nonce, ha, hmem, hbears⟩ := onvifSetAuthInfo_bears hsent hdate hs
  have hha : ha = calcDigest P (soapDateTime2s made) nonce.toList p := hsha _ _ _ _ hmem
  have htoken : soapWsseUsernameToken s none = some _ := hbears
  have hnonce : tokenNonce s = some (base64 nonce.toList) := by
    rw [tokenNonce, htoken]
    rfl
  refine ⟨?_, nonce, hnonce, ?_⟩
  · rw [soapWsseGetUsername, htoken]
    rfl
  · rw [← hha]
    exact hbears.accepted_iff hyear hcheck (hfav _ hnonce)

/-- A client whose clock shows `made` and that lacks nothing. -/
def signing (P : Platform) (made : ℕ) : List (Reply WsddProbeMatches) → (o : Op) →
    o.Ans × List (Reply WsddProbeMatches)
  | q, .soapDateTime2s => (soapDateTime2s made, q)
  | q, .calcDigest created nonce password => ((calcDigest P created nonce.toList password, soapOk), q)
  | q, o => host (fun s _ _ _ => unreachable s) q o

def signed : Soap where
  header := some (secured {} {
    usernameToken := some (digestToken admin (soapDateTime2s 0) (Vector.replicate 20 0) epochDigest) })

def signedRun : Gsoap.Trace × Outcome (ℤ × Ptr Soap) × List (Reply WsddProbeMatches) :=
  exec (S := gsoap) (signing (hashing epochDigest) 0)
    (onvifSetAuthInfo .debug (some {}) (some admin) (some (.lit "secret"))) []

theorem signedRun_runs : Runs (onvifSetAuthInfo .debug (some {}) (some admin) (some (.lit "secret"))) signedRun.1
    (.ok (soapOk, some signed)) := exec_runs (S := gsoap) (signing (hashing epochDigest) 0) _ []

theorem attentive_favourable {α : Type} {made now : ℤ} (hlow : made ≤ now + wsseClkskew)
    (hhigh : now < made + wsseNoncetime) (n : CStr) (p : Program server α) :
    ∀ e ∈ (exec (S := server) (attentive now []) p ()).1, Favourable made n e.1 e.2 := by
  rintro ⟨o, x⟩ he
  obtain ⟨_, hx⟩ := exec_answered _ _ _ _ he
  cases o with
  | time =>
    obtain rfl : x = now := hx
    exact ⟨hlow, hhigh⟩
  | soapMalloc n => exact hx
  | sessions =>
    obtain rfl : x = [] := hx
    exact nofun
  | _ => trivial

def receivedRun : PasswordCheck.Trace × Outcome Verdict × Unit :=
  exec (S := server) (attentive 1 []) (soapWsseVerifyPassword (hashing epochDigest) signed (.lit "secret")) ()

theorem exchanged_accepted_at_epoch : (soapWsseGetUsername signed).1 = some admin ∧
    (∃ nonce : WsseNonce, tokenNonce signed = some (base64 nonce.toList)) ∧ Accepted receivedRun.2.1 := by
  have hfav : ∀ n, tokenNonce signed = some n → ∀ e ∈ receivedRun.1, Favourable ((0 : ℕ) : ℤ) n e.1 e.2 :=
    fun n _ => attentive_favourable (by decide) (by decide) n _
  have hdate : ∀ x, ⟨.soapDateTime2s, x⟩ ∈ signedRun.1 → x = soapDateTime2s 0 := by
    intro x hx
    obtain ⟨_, hx⟩ := exec_answered _ _ _ _ hx
    exact hx
  have hsha : ∀ created nonce pw x, ⟨.calcDigest created nonce pw, x⟩ ∈ signedRun.1 →
      x.1 = calcDigest (hashing epochDigest) created nonce.toList pw := by
    intro created nonce pw x hx
    obtain ⟨_, hx⟩ := exec_answered _ _ _ _ hx
    exact congrArg Prod.fst hx
  obtain ⟨huser, nonce, hnonce, haccept⟩ :=
    exchanged_accepted (s := signed) signedRun_runs hdate (by decide +kernel) hsha rfl (exec_runs _ _ _) hfav
  exact ⟨huser, ⟨nonce, hnonce⟩, haccept.mpr rfl⟩

end OnvifSdk.DigestExchange
