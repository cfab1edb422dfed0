import OnvifSdk.DigestExchange

namespace OnvifSdk.NonceSpelling

open Lib Program Gsoap PasswordCheck DigestExchange

def setNonce (soap : Soap) (n : CStr) : Soap :=
  soap.setToken ((soapWsseUsernameToken soap none).map fun token =>
    { token with nonce := token.nonce.map fun nonce => { nonce with item := some n } })

theorem soapBase642s_append {s extra : CStr} (h : base64Pad ∈ s.bytes) :
    soapBase642s (base64Room (s.append extra)) (s.append extra) = soapBase642s (base64Room s) s := by
  obtain ⟨a, b, hs⟩ := List.append_of_mem h
  have hroom : (0 + s.bytes.length + 3) / 4 * 3 ≤ base64Room s := by
    simp only [base64Room, CStr.length]
    omega
  have hmore : base64Room s ≤ base64Room (s.append extra) := by
    have : (s.length + 3) / 4 ≤ ((s.append extra).length + 3) / 4 :=
      Nat.div_le_div_right (by simp [CStr.length])
    simp only [base64Room]
    omega
  have hsame : ∀ l, base642sLoop 0 0 l (s.append extra).bytes = base642sLoop 0 0 l s.bytes := by
    intro l
    rw [CStr.append_bytes, hs, List.append_assoc, List.cons_append, base642sLoop_after_pad 0 0 l a b,
      base642sLoop_after_pad 0 0 l a (b ++ extra.bytes)]
  rw [soapBase642s, soapBase642s, hsame]
  exact base642sLoop_room 0 s.bytes (by omega) (hroom.trans hmore) hroom

theorem soapWsseUsernameToken_none (soap : Soap) :
    soapWsseUsernameToken soap none = soap.security.bind (·.usernameToken) := by
  unfold soapWsseUsernameToken
  cases soap.security.bind (·.usernameToken) <;> rfl

theorem soapWsseUsernameToken_setToken {soap : Soap} {token : WsseUsernameToken}
    (h : soapWsseUsernameToken soap none = some token) (t : Ptr WsseUsernameToken) :
    soapWsseUsernameToken (soap.setToken t) none = t := by
  rw [soapWsseUsernameToken_none] at h ⊢
  obtain ⟨security, hsec, -⟩ := Option.bind_eq_some_iff.mp h
  obtain ⟨header, hheader, hsecurity⟩ := Option.bind_eq_some_iff.mp hsec
  simp [Soap.setToken, Soap.setSecurity, Soap.security, hheader, hsecurity]

theorem setNonce_digest {soap : Soap} {nonce : WsseEncodedString} {created item : CStr}
    (h : HasDigest soap nonce created item) (n : CStr) :
    HasDigest (setNonce soap n) { nonce with item := some n } created item := by
  obtain ⟨token, supplied, ht, hp, htype, hi, hn, hc⟩ := h
  have hset : soapWsseUsernameToken (setNonce soap n) none =
      some { token with nonce := some { nonce with item := some n } } := by
    rw [setNonce, soapWsseUsernameToken_setToken ht, ht, Option.map_some, hn, Option.map_some]
  exact ⟨_, supplied, hset, hp, htype, hi, rfl, hc⟩

theorem exists_longer (l : List Session) : ∃ extra : CStr, ∀ s ∈ l, ∀ n : CStr, s.nonce ≠ n.append extra := by
  have hnul : ∀ k, (0 : UInt8) ∉ List.replicate k 65 := by
    intro k h
    exact absurd (List.eq_of_mem_replicate h) (by decide)
  refine ⟨⟨List.replicate ((l.map (·.nonce.length)).sum + 1) 65, hnul _⟩, ?_⟩
  intro s hs n he
  have hle := List.single_le_sum (l := l.map (·.nonce.length)) (fun _ _ => Nat.zero_le _) _ (List.mem_map_of_mem hs)
  have hlen := congrArg CStr.length he
  simp only [CStr.length, CStr.append_bytes, List.length_append, List.length_replicate] at hlen hle
  omega

def WhileFresh (made : ℤ) (l : List Session) : (o : ServerOp) → o.Ans → Prop
  | .time, now => made ≤ now + wsseClkskew ∧ now < made + wsseNoncetime
  | .soapMalloc _, found => found = true
  | .sessions, l' => l' ⊆ l
  | _, _ => True

/-- A digest is good for as many requests as one likes: what stands behind the `=` of its nonce does
not count for the digest, but the table takes the nonce as it is spelled. -/
theorem respelled_accepted {P : Platform} {soap : Soap} {created item password n : CStr} {nonce : WsseEncodedString}
    {made : ℤ} (hdigest : HasDigest soap nonce created item) (hitem : item.length = 28)
    (heq : ∀ stack, calcDigest P created (nonceBytes nonce) password = suppliedDigest item stack)
    (hmade : madeAt P (some created) = .ok made) (hn : nonce.item = some n) (hpad : base64Pad ∈ n.bytes)
    (henc : nonce.encodingType = none ∨ nonce.encodingType = some wsseBase64BinaryURI) (l : List Session) :
    ∃ extra : CStr, ∀ t r, Runs (soapWsseVerifyPassword P (setNonce soap (n.append extra)) password) t r →
      (∀ e ∈ t, WhileFresh made l e.1 e.2) → Accepted r := by
  obtain ⟨extra, hextra⟩ := exists_longer l
  have hhex : nonce.encodingType ≠ some wsseHexBinaryURI := by
    have hne : some wsseBase64BinaryURI ≠ some wsseHexBinaryURI := by decide +kernel
    rcases henc with h | h <;> rw [h]
    · exact nofun
    · exact hne
  have hbytes : nonceBytes { nonce with item := some (n.append extra) } = nonceBytes nonce := by
    simp only [nonceBytes, hn, hhex, ↓reduceIte, soapBase642s_append hpad]
  refine ⟨extra, ?_⟩
  intro t r ht hfresh
  have hset : Settles made (n.append extra) (soapWsseVerifyPassword P (setNonce soap (n.append extra)) password)
      Accepted := by
    apply password_settles (setNonce_digest hdigest (n.append extra)) hitem hmade rfl (henc.imp_right Or.inl)
    rwa [hbytes]
  apply (hset.runs ht _).2
  rintro ⟨o, x⟩ he
  have hx := hfresh ⟨o, x⟩ he
  cases o <;> first | exact hx | trivial | skip
  exact fun s hs => hextra s (hx hs) n

theorem respelled_accepted_at_epoch : ∃ extra : CStr, ∀ t r,
    Runs (soapWsseVerifyPassword (hashing epochDigest)
      (setNonce epochSoap ((base64 (List.replicate 20 0)).append extra)) (.lit "secret")) t r →
    (∀ e ∈ t, WhileFresh 0 [⟨540, epochDigest, base64 (List.replicate 20 0)⟩] e.1 e.2) → Accepted r := by
  have hdigest : HasDigest epochSoap
      { item := some (base64 (List.replicate 20 0)), encodingType := some wsseBase64BinaryURI }
      (.lit "1970-01-01T00:00:00Z") (base64 epochDigest.toList) := ⟨_, _, rfl, rfl, rfl, rfl, rfl, rfl⟩
  apply respelled_accepted hdigest (by decide +kernel) _ (by decide +kernel) rfl (by decide +kernel) (.inr rfl)
  exact fun stack => (suppliedDigest_base64 epochDigest stack).symm

end OnvifSdk.NonceSpelling
