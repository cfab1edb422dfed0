import OnvifSdk.Gsoap.Verify

namespace OnvifSdk.PasswordCheck

open Lib Program Gsoap

abbrev Trace := List (Event server)

/-- The session has entered the table, or there was no memory for it. -/
def Recorded (t : Trace) (session : Session) (now : ℤ) : Prop :=
  ⟨.push session now, ()⟩ ∈ t ∨ ⟨.mallocSession session.nonce.length, false⟩ ∈ t

theorem findSession_error {hash : SmdSha1} {nonce : Ptr CStr} {l : List Session} {e : Fault}
    (h : findSession hash nonce l = .error e) : e = .memory ∧ nonce = none := by
  induction l with
  | nil => cases h
  | cons s l ih =>
    simp only [findSession] at h
    split_ifs at h with hh
    · cases nonce with
      | none => exact ⟨(Except.error.inj h).symm, rfl⟩
      | some n =>
        simp only at h
        split_ifs at h
        exact ih h
    · exact ih h

theorem findSession_ok {hash : SmdSha1} {n : CStr} {l : List Session} {s : Option Session}
    (h : findSession hash (some n) l = .ok s) :
    s.isSome = true ↔ ∃ s ∈ l, s.hash = hash ∧ s.nonce = n := by
  induction l with
  | nil =>
    cases h
    simp
  | cons a l ih =>
    simp only [findSession] at h
    by_cases hh : a.hash = hash
    · by_cases hn : a.nonce = n
      · simp only [hh, hn, ↓reduceIte, Except.ok.injEq] at h
        subst h
        simp [hh, hn]
      · simp only [hh, hn, ↓reduceIte] at h
        rw [ih h]
        simp [hn]
    · simp only [hh, ↓reduceIte] at h
      rw [ih h]
      simp [hh]

theorem add_runs {session : Session} {now : ℤ} {t : Trace} {r : Outcome Unit}
    (h : Runs (soapWsseSessionAdd session now) t r) : r = .ok () ∧ Recorded t session now := by
  obtain ⟨found, t₁, rfl, h₁⟩ := runs_op.mp h
  cases found with
  | false =>
    obtain ⟨rfl, rfl⟩ := runs_ret.mp h₁
    exact ⟨rfl, .inr (by simp)⟩
  | true =>
    obtain ⟨_, t₂, rfl, h₂⟩ := runs_op.mp h₁
    obtain ⟨rfl, rfl⟩ := runs_ret.mp h₂
    exact ⟨rfl, .inl (by simp)⟩

theorem Recorded.mono {t t' : Trace} {session : Session} {now : ℤ} (h : Recorded t session now)
    (ht : t ⊆ t') : Recorded t' session now := h.imp (@ht _) (@ht _)

theorem update_runs {hash : SmdSha1} {expired now : ℤ} {nonce : Ptr CStr} {t : Trace} {r : Outcome Bool}
    (h : Runs (soapWsseSessionUpdate hash expired now nonce) t r) :
    ∃ l, ⟨.sessions, l⟩ ∈ t ∧
      ((nonce = none ∧ r ≠ .ok false) ∨
        (∃ n, nonce = some n ∧ (∃ s ∈ l, s.hash = hash ∧ s.nonce = n) ∧ r = .ok true) ∨
        ∃ n, nonce = some n ∧ (∀ s ∈ l, s.hash = hash → s.nonce ≠ n) ∧ r = .ok false ∧
          Recorded t ⟨expired, hash, n⟩ now) := by
  obtain ⟨_, t₁, rfl, h₁⟩ := runs_op.mp h
  obtain ⟨l, t₂, rfl, h₂⟩ := runs_op.mp h₁
  change Runs (lift (findSession hash nonce l) >>= _) t₂ r at h₂
  refine ⟨l, by simp, ?_⟩
  cases hf : findSession hash nonce l with
  | error e =>
    rw [hf] at h₂
    obtain ⟨rfl, rfl⟩ := runs_stop.mp h₂
    exact .inl ⟨(findSession_error hf).2, nofun⟩
  | ok found =>
    rw [hf] at h₂
    simp only [lift_ok, ret_bind] at h₂
    cases found with
    | some s =>
      obtain ⟨_, t₃, rfl, h₃⟩ := runs_op.mp h₂
      obtain ⟨rfl, rfl⟩ := runs_ret.mp h₃
      cases nonce with
      | none => exact .inl ⟨rfl, nofun⟩
      | some n => exact .inr (.inl ⟨n, rfl, (findSession_ok hf).mp rfl, rfl⟩)
    | none =>
      cases nonce with
      | none =>
        obtain ⟨rfl, rfl⟩ := runs_stop.mp h₂
        exact .inl ⟨rfl, nofun⟩
      | some n =>
        have habsent : ∀ s ∈ l, s.hash = hash → s.nonce ≠ n := by
          intro s hs hh hn
          have := (findSession_ok hf).mpr ⟨s, hs, hh, hn⟩
          simp at this
        simp only [deref_some, ret_bind] at h₂
        rcases runs_bind.mp h₂ with ⟨e, h₃, _⟩ | ⟨_, t₃, t₄, rfl, h₃, h₄⟩
        · exact absurd (add_runs h₃).1 nofun
        · obtain ⟨_, t₅, rfl, h₅⟩ := runs_op.mp h₄
          obtain ⟨rfl, rfl⟩ := runs_ret.mp h₅
          refine .inr (.inr ⟨n, rfl, habsent, rfl, (add_runs h₃).2.mono ?_⟩)
          intro e he
          simp [he]

def madeAt (P : Platform) (created : Ptr CStr) : Outcome ℤ :=
  (soapS2dateTime P.strict P.mktime soapOk created).map Prod.snd

theorem madeAt_eq (P : Platform) (error : ℤ) (created : Ptr CStr) :
    (soapS2dateTime P.strict P.mktime error created).map Prod.snd = madeAt P created := by
  unfold madeAt
  cases created with
  | none => rfl
  | some s =>
    simp only [soapS2dateTime]
    split_ifs
    · rfl
    · rcases dateFields P.strict s.bytes with e | _ | ⟨T, u⟩
      · rfl
      · rfl
      · simp only [Bind.bind, Except.bind]
        rcases timeFields P.strict T u with e | _ | ⟨T, u⟩
        · rfl
        · rfl
        · simp only
          cases zonedTime P.strict P.mktime T.counted (skipBlank P.strict (skipFraction u)) <;> rfl

/-- A token has been let in at `now`: it is fresh, and the table does not list it. -/
abbrev Admitted (P : Platform) (hash : SmdSha1) (created nonce : Ptr CStr) (t : Trace) : Prop :=
  ∃ now made n l, ⟨.time, now⟩ ∈ t ∧ madeAt P created = .ok made ∧
    now - wsseNoncetime < made ∧ made ≤ now + wsseClkskew ∧
    nonce = some n ∧ ⟨.sessions, l⟩ ∈ t ∧ (∀ s ∈ l, s.hash = hash → s.nonce ≠ n) ∧
    Recorded t ⟨made + wsseNoncetime, hash, n⟩ now

theorem fault_status (soap : Soap) (code : WsseFaultcode) (detail : Ptr CStr) :
    (soapWsseFault soap code detail).status ≠ soapOk := by
  change soapFault ≠ soapOk
  decide

theorem verdict_runs {P : Platform} {soap : Soap} {hash : SmdSha1} {created nonce : Ptr CStr} {now made : ℤ}
    {t t' : Trace} {v : Verdict} (hmade : madeAt P created = .ok made)
    (hfuture : made ≤ now + wsseClkskew) (hexpired : now < made + wsseNoncetime)
    (ht : ⟨.time, now⟩ ∈ t') (hsub : t ⊆ t')
    (h : Runs (soapWsseSessionUpdate hash (made + wsseNoncetime) now nonce >>= fun replayed =>
      if replayed then .ret (soapWsseFault soap .failedAuthentication none) else .ret ⟨soapOk, soap, none⟩)
      t (.ok v)) (hv : v.status = soapOk) : Admitted P hash created nonce t' := by
  obtain ⟨replayed, t₁, t₂, rfl, h₁, h₂⟩ := h.of_bind
  cases replayed with
  | true =>
    obtain ⟨_, hr⟩ := runs_ret.mp h₂
    cases hr
    exact absurd hv (fault_status _ _ _)
  | false =>
    obtain ⟨l, hl, ⟨_, hr⟩ | ⟨_, _, _, hr⟩ | ⟨n, rfl, habsent, _, hrec⟩⟩ := update_runs h₁
    · exact absurd rfl hr
    · cases hr
    · have hsub₁ : t₁ ⊆ t' := List.Subset.trans (List.subset_append_left _ _) hsub
      exact ⟨now, made, n, l, ht, hmade, by omega, hfuture, rfl, hsub₁ hl, habsent, hrec.mono hsub₁⟩

theorem session_runs {P : Platform} {soap : Soap} {hash : SmdSha1} {created nonce : Ptr CStr} {t : Trace} {v : Verdict}
    (h : Runs (soapWsseSessionVerify P soap hash created nonce) t (.ok v)) (hv : v.status = soapOk) :
    Admitted P hash created nonce t := by
  obtain ⟨now, t₁, rfl, h₁⟩ := runs_op.mp h
  change Runs (lift (soapS2dateTime P.strict P.mktime soap.error created) >>= _) t₁ _ at h₁
  cases hp : soapS2dateTime P.strict P.mktime soap.error created with
  | error e =>
    rw [hp] at h₁
    obtain ⟨_, hr⟩ := runs_stop.mp h₁
    cases hr
  | ok x =>
    rw [hp] at h₁
    obtain ⟨error, made⟩ := x
    have hmade : madeAt P created = .ok made := by rw [← madeAt_eq P soap.error, hp]; rfl
    simp only [lift_ok, ret_bind] at h₁
    split_ifs at h₁ with hfuture hexpired hpurge
    · obtain ⟨_, hr⟩ := runs_ret.mp h₁
      cases hr
      exact absurd hv (fault_status _ _ _)
    · obtain ⟨_, hr⟩ := runs_ret.mp h₁
      cases hr
      exact absurd hv (fault_status _ _ _)
    · obtain ⟨_, t₂, t₃, rfl, _, h₃⟩ := h₁.of_bind
      apply verdict_runs hmade (not_lt.mp hfuture) (not_le.mp hexpired) List.mem_cons_self _ h₃ hv
      intro e he
      simp [he]
    · exact verdict_runs hmade (not_lt.mp hfuture) (not_le.mp hexpired) List.mem_cons_self
        (List.subset_cons_self _ _) h₁ hv

/-- The token of the request, as far as a digest goes. -/
abbrev HasDigest (soap : Soap) (nonce : WsseEncodedString) (created item : CStr) : Prop :=
  ∃ token supplied, soapWsseUsernameToken soap none = some token ∧ token.password = some supplied ∧
    supplied.type = some wssePasswordDigestURI ∧ supplied.item = some item ∧
    token.nonce = some nonce ∧ token.wsuCreated = some created

def HasText (soap : Soap) (password : CStr) : Prop :=
  ∃ token supplied, soapWsseUsernameToken soap none = some token ∧ token.password = some supplied ∧
    supplied.type ≠ some wssePasswordDigestURI ∧ supplied.item = some password

def nonceBytes (nonce : WsseEncodedString) : List UInt8 :=
  match nonce.item with
  | none => []
  | some s =>
    if nonce.encodingType = some wsseHexBinaryURI then hexBytes s.bytes
    else if (soapBase642s (base64Room s) s).valid then (soapBase642s (base64Room s) s).bytes else []

theorem hex2sNew_runs {soap soap' : Soap} {s : CStr} {bytes : List UInt8} {t : Trace}
    (h : Runs (soapHex2sNew soap (some s)) t (.ok (bytes, soap'))) : bytes = hexBytes s.bytes := by
  simp only [soapHex2sNew] at h
  split_ifs at h with hs
  · rw [hs]
    exact (Prod.mk.inj (Except.ok.inj (runs_ret.mp h).2)).1
  · obtain ⟨found, t₁, rfl, h₁⟩ := runs_op.mp h
    cases found with
    | false => cases (runs_stop.mp h₁).2
    | true => exact (Prod.mk.inj (Except.ok.inj (runs_ret.mp h₁).2)).1

theorem base642sNew_runs {soap soap' : Soap} {s : CStr} {bytes : List UInt8} {t : Trace}
    (h : Runs (soapBase642sNew soap (some s)) t (.ok (bytes, soap'))) :
    bytes = ((soapBase642s (base64Room s) s).leave soap).1 := by
  simp only [soapBase642sNew] at h
  split_ifs at h with hs
  · have hb : (soapBase642s (base64Room s) s) = { bytes := [] } := by
      rw [soapBase642s, hs]
      rfl
    rw [hb]
    exact (Prod.mk.inj (Except.ok.inj (runs_ret.mp h).2)).1
  · obtain ⟨found, t₁, rfl, h₁⟩ := runs_op.mp h
    cases found with
    | false => cases (runs_stop.mp h₁).2
    | true => rw [← Except.ok.inj (runs_ret.mp h₁).2]

theorem decodeNonce_runs {soap soap' : Soap} {nonce : WsseEncodedString} {bytes : List UInt8} {t : Trace}
    (h : Runs (decodeNonce soap nonce) t (.ok (bytes, soap'))) : bytes = nonceBytes nonce := by
  unfold decodeNonce at h
  unfold nonceBytes
  cases hi : nonce.item with
  | none =>
    rw [hi] at h
    split_ifs at h <;> exact (Prod.mk.inj (Except.ok.inj (runs_ret.mp h).2)).1
  | some s =>
    rw [hi] at h
    simp only
    split_ifs at h ⊢ with henc hv
    · exact hex2sNew_runs h
    · rw [base642sNew_runs h, Decoded.leave, if_pos hv]
    · rw [base642sNew_runs h, Decoded.leave, if_neg hv]

theorem digest_runs {P : Platform} {soap : Soap} {item created password : CStr} {nonce : WsseEncodedString} {t : Trace}
    {v : Verdict} (h : Runs (soapWsseVerifyDigest P soap item nonce created password) t (.ok v))
    (hv : v.status = soapOk) : ∃ stack, ⟨.stack, stack⟩ ∈ t ∧
      calcDigest P created (nonceBytes nonce) password = suppliedDigest item stack ∧
      Admitted P (calcDigest P created (nonceBytes nonce) password) (some created) nonce.item t := by
  unfold soapWsseVerifyDigest at h
  split_ifs at h with henc
  · obtain ⟨⟨bytes, soap'⟩, t₁, t₂, rfl, h₁, h₂⟩ := h.of_bind
    obtain ⟨stack, t₃, rfl, h₃⟩ := runs_op.mp h₂
    obtain rfl := decodeNonce_runs h₁
    change Runs (if _ then _ else _) t₃ _ at h₃
    split_ifs at h₃ with heq
    · refine ⟨stack, by simp, heq, ?_⟩
      obtain ⟨now, made, n, l, ht, hmade, hlow, hhigh, hn, hl, habsent, hrec⟩ := session_runs h₃ hv
      have hsub : t₃ ⊆ t₁ ++ ⟨.stack, stack⟩ :: t₃ := by
        intro e he
        simp [he]
      exact ⟨now, made, n, l, hsub ht, hmade, hlow, hhigh, hn, hsub hl, habsent, hrec.mono hsub⟩
    · cases (runs_ret.mp h₃).2
      exact absurd hv (fault_status _ _ _)
  · cases (runs_ret.mp h).2
    exact absurd hv (fault_status _ _ _)

theorem password_runs {P : Platform} {soap : Soap} {password : CStr} {t : Trace} {v : Verdict}
    (h : Runs (soapWsseVerifyPassword P soap password) t (.ok v)) (hv : v.status = soapOk) :
    HasText soap password ∨ ∃ nonce created item stack, HasDigest soap nonce created item ∧ item.length = 28 ∧
      ⟨.stack, stack⟩ ∈ t ∧ calcDigest P created (nonceBytes nonce) password = suppliedDigest item stack ∧
      Admitted P (calcDigest P created (nonceBytes nonce) password) (some created) nonce.item t := by
  have hrefused : ∀ {t' : Trace}, Runs (.ret (soapWsseFault soap .failedAuthentication none)) t' (.ok v) → False := by
    intro t' h'
    cases (runs_ret.mp h').2
    exact fault_status _ _ _ hv
  unfold soapWsseVerifyPassword at h
  cases ht : soapWsseUsernameToken soap none with
  | none =>
    rw [ht] at h
    exact (hrefused h).elim
  | some token =>
    rw [ht] at h
    simp only at h
    cases hp : token.password with
    | none =>
      rw [hp] at h
      exact (hrefused h).elim
    | some supplied =>
      rw [hp] at h
      simp only at h
      split_ifs at h with htype htext
      · cases hn : token.nonce with
        | none =>
          rw [hn] at h
          exact (hrefused h).elim
        | some nonce =>
          cases hc : token.wsuCreated with
          | none =>
            rw [hn, hc] at h
            exact (hrefused h).elim
          | some created =>
            rw [hn, hc] at h
            cases hi : supplied.item with
            | none =>
              rw [hi] at h
              cases (runs_stop.mp h).2
            | some item =>
              rw [hi] at h
              simp only [deref_some, ret_bind] at h
              split_ifs at h with hlen
              · obtain ⟨stack, hstack, heq, hadm⟩ := digest_runs h hv
                exact .inr ⟨nonce, created, item, stack, ⟨token, supplied, ht, hp, htype, hi, hn, hc⟩, hlen, hstack,
                  heq, hadm⟩
              · exact (hrefused h).elim
      · exact .inl ⟨token, supplied, ht, hp, htype, htext⟩
      · exact (hrefused h).elim

/-- Who is let in has sent the password, in clear, or a text that reads as its digest over a nonce and
a time of creation, fresh and not in the table, and the token is then entered there. Where the text
does not decode, it reads as what stood in the array before. -/
theorem verify_runs {P : Platform} {soap : Soap} {password : CStr} {t : Trace} {v : Verdict}
    (h : Runs (soapWsseVerifyPassword P soap password) t (.ok v)) (hv : v.status = soapOk) :
    HasText soap password ∨ ∃ nonce created item stack now made n l, HasDigest soap nonce created item ∧
      item.length = 28 ∧ ⟨.stack, stack⟩ ∈ t ∧
      calcDigest P created (nonceBytes nonce) password = suppliedDigest item stack ∧
      ⟨.time, now⟩ ∈ t ∧ madeAt P (some created) = .ok made ∧
      now - wsseNoncetime < made ∧ made ≤ now + wsseClkskew ∧ nonce.item = some n ∧
      ⟨.sessions, l⟩ ∈ t ∧ (∀ s ∈ l, s.hash = calcDigest P created (nonceBytes nonce) password → s.nonce ≠ n) ∧
      (⟨.push ⟨made + wsseNoncetime, calcDigest P created (nonceBytes nonce) password, n⟩ now, ()⟩ ∈ t ∨
        ⟨.mallocSession n.length, false⟩ ∈ t) := by
  obtain htext | ⟨nonce, created, item, stack, hdigest, hlen, hstack, heq, now, made, n, l, hadm⟩ := password_runs h hv
  · exact .inl htext
  · exact .inr ⟨nonce, created, item, stack, now, made, n, l, hdigest, hlen, hstack, heq, hadm⟩

def attentive (now : ℤ) (l : List Session) : Unit → (o : ServerOp) → o.Ans × Unit
  | _, .time => (now, ())
  | _, .soapMalloc _ => (true, ())
  | _, .stack => (Vector.replicate 20 0, ())
  | _, .lock => ((), ())
  | _, .sessions => (l, ())
  | _, .unlink _ => ((), ())
  | _, .mallocSession _ => (true, ())
  | _, .push _ _ => ((), ())
  | _, .unlock => ((), ())

-- Each run below hashes one text, and `digest` is the SHA-1 of it.
def hashing (digest : SmdSha1) : Platform := { sha1 := fun _ => digest, strict := false, mktime := timegm }

def presenting (digest : SmdSha1) (created : CStr) : Soap where
  header := some {
    wsseSecurity := some {
      usernameToken := some {
        username := some (.lit "admin")
        password := some { type := some wssePasswordDigestURI, item := some (base64 digest.toList) }
        nonce := some {
          item := some (base64 (List.replicate 20 0))
          encodingType := some wsseBase64BinaryURI }
        wsuCreated := some created } } }

def epochDigest : SmdSha1 :=
  #v[8, 131, 16, 105, 138, 183, 177, 30, 13, 32, 76, 60, 239, 89, 220, 247, 186, 249, 221, 190]

def epochSoap : Soap := presenting epochDigest (.lit "1970-01-01T00:00:00Z")

def checkRun (digest : SmdSha1) (created : CStr) : Trace × Outcome Verdict × Unit :=
  exec (S := server) (attentive 1 [])
    (soapWsseVerifyPassword (hashing digest) (presenting digest created) (.lit "secret")) ()

theorem checkRun_runs (digest : SmdSha1) (created : CStr) :
    Runs (soapWsseVerifyPassword (hashing digest) (presenting digest created) (.lit "secret"))
      (checkRun digest created).1 (checkRun digest created).2.1 := exec_runs _ _ _

theorem epoch_accepted : (checkRun epochDigest (.lit "1970-01-01T00:00:00Z")).2.1 =
    .ok ⟨soapOk, epochSoap, none⟩ := by decide +kernel

theorem verify_runs_at_epoch : HasText epochSoap (.lit "secret") ∨ ∃ nonce created item stack now made n l,
    HasDigest epochSoap nonce created item ∧ item.length = 28 ∧
      ⟨.stack, stack⟩ ∈ (checkRun epochDigest (.lit "1970-01-01T00:00:00Z")).1 ∧
      calcDigest (hashing epochDigest) created (nonceBytes nonce) (.lit "secret") = suppliedDigest item stack ∧
      ⟨.time, now⟩ ∈ (checkRun epochDigest (.lit "1970-01-01T00:00:00Z")).1 ∧
      madeAt (hashing epochDigest) (some created) = .ok made ∧
      now - wsseNoncetime < made ∧ made ≤ now + wsseClkskew ∧ nonce.item = some n ∧
      ⟨.sessions, l⟩ ∈ (checkRun epochDigest (.lit "1970-01-01T00:00:00Z")).1 ∧
      (∀ s ∈ l, s.hash = calcDigest (hashing epochDigest) created (nonceBytes nonce) (.lit "secret") → s.nonce ≠ n) ∧
      (⟨.push ⟨made + wsseNoncetime, calcDigest (hashing epochDigest) created (nonceBytes nonce) (.lit "secret"), n⟩ now,
          ()⟩ ∈ (checkRun epochDigest (.lit "1970-01-01T00:00:00Z")).1 ∨
        ⟨.mallocSession n.length, false⟩ ∈ (checkRun epochDigest (.lit "1970-01-01T00:00:00Z")).1) :=
  verify_runs (epoch_accepted ▸ checkRun_runs _ _) rfl

section Decoding

variable {rely : (o : ServerOp) → o.Ans → Prop} (hrely : ∀ n found, rely (.soapMalloc n) found → found = true)

include hrely

theorem base642sNew_meets (soap : Soap) (s : CStr) : (soapBase642sNew soap (some s)).Meets rely (fun _ => True)
    fun r => ∃ a, r = .ok a ∧ a.1 = ((soapBase642s (base64Room s) s).leave soap).1 := by
  simp only [soapBase642sNew]
  split_ifs with hs
  · refine ⟨_, rfl, ?_⟩
    rw [soapBase642s, hs]
    rfl
  · refine ⟨trivial, fun found hfound => ?_⟩
    obtain rfl := hrely _ found hfound
    exact ⟨_, rfl, rfl⟩

theorem hex2sNew_meets (soap : Soap) (s : CStr) : (soapHex2sNew soap (some s)).Meets rely (fun _ => True)
    fun r => ∃ a, r = .ok a ∧ a.1 = hexBytes s.bytes := by
  simp only [soapHex2sNew]
  split_ifs with hs
  · exact ⟨_, rfl, by rw [hs]; rfl⟩
  · refine ⟨trivial, fun found hfound => ?_⟩
    obtain rfl := hrely _ found hfound
    exact ⟨_, rfl, rfl⟩

theorem decodeNonce_meets (soap : Soap) (nonce : WsseEncodedString) :
    (decodeNonce soap nonce).Meets rely (fun _ => True) fun r => ∃ a, r = .ok a ∧ a.1 = nonceBytes nonce := by
  unfold decodeNonce nonceBytes
  cases hi : nonce.item with
  | none => split_ifs <;> exact ⟨_, rfl, rfl⟩
  | some s =>
    simp only
    split_ifs with henc hv
    · exact hex2sNew_meets hrely soap s
    · have h := base642sNew_meets hrely soap s
      rwa [Decoded.leave, if_pos hv] at h
    · have h := base642sNew_meets hrely soap s
      rwa [Decoded.leave, if_neg hv] at h

end Decoding

section Acceptance

variable (made : ℤ) (n : CStr)

/-- The clock shows a time at which the token is fresh, memory is there, and no session has its nonce. -/
def Favourable : (o : ServerOp) → o.Ans → Prop
  | .time, now => made ≤ now + wsseClkskew ∧ now < made + wsseNoncetime
  | .soapMalloc _, found => found = true
  | .sessions, l => ∀ s ∈ l, s.nonce ≠ n
  | _, _ => True

variable {made n} {α : Type}

abbrev Settles (made : ℤ) (n : CStr) (p : Program server α) (post : Outcome α → Prop) : Prop :=
  p.Meets (Favourable made n) (fun _ => True) post

theorem Settles.bind {β : Type} {p : Program server α} {f : α → Program server β} {q : α → Prop}
    {post : Outcome β → Prop} (h : Settles made n p fun r => ∃ a, r = .ok a ∧ q a)
    (hf : ∀ a, q a → Settles made n (f a) post) : Settles made n (p >>= f) post := by
  apply meets_bind.mpr
  apply h.mono fun _ _ => trivial
  rintro _ ⟨a, rfl, ha⟩
  exact hf a ha

theorem findSession_absent {hash : SmdSha1} {l : List Session} (h : ∀ s ∈ l, s.nonce ≠ n) :
    findSession hash (some n) l = .ok none := by
  induction l with
  | nil => rfl
  | cons s l ih =>
    have hs := h s List.mem_cons_self
    simp only [findSession, hs, ↓reduceIte, ite_self]
    exact ih fun s hs => h s (List.mem_cons_of_mem _ hs)

theorem add_settles (session : Session) (now : ℤ) :
    Settles made n (soapWsseSessionAdd session now) fun r => ∃ a, r = .ok a ∧ True := by
  refine ⟨trivial, ?_⟩
  rintro (_ | _) _
  · exact ⟨(), rfl, trivial⟩
  · exact ⟨trivial, fun _ _ => ⟨(), rfl, trivial⟩⟩

theorem update_settles (hash : SmdSha1) (expired now : ℤ) :
    Settles made n (soapWsseSessionUpdate hash expired now (some n)) fun r => ∃ a, r = .ok a ∧ a = false := by
  refine ⟨trivial, fun _ _ => ⟨trivial, ?_⟩⟩
  intro l hl
  change Settles made n (lift (findSession hash (some n) l) >>= _) _
  rw [findSession_absent hl]
  simp only [lift_ok, deref_some, ret_bind]
  apply (add_settles _ _).bind
  exact fun _ _ => ⟨trivial, fun _ _ => ⟨false, rfl, rfl⟩⟩

theorem purge_settles (now : ℤ) (l : List Session) :
    Settles made n (purge now l) fun r => ∃ a, r = .ok a ∧ True := by
  induction l with
  | nil => exact ⟨(), rfl, trivial⟩
  | cons s l ih =>
    simp only [purge]
    split_ifs
    · exact ⟨trivial, fun _ _ => ih⟩
    · exact ih

theorem cleanup_settles : Settles made n soapWsseSessionCleanup fun r => ∃ a, r = .ok a ∧ True := by
  refine ⟨trivial, fun now _ => ⟨trivial, fun _ _ => ⟨trivial, fun l _ => ?_⟩⟩⟩
  apply (purge_settles now l).bind
  exact fun _ _ => ⟨trivial, fun _ _ => ⟨(), rfl, trivial⟩⟩

abbrev Accepted (r : Outcome Verdict) : Prop := ∃ v, r = .ok v ∧ v.status = soapOk

theorem session_settles {P : Platform} {created : Ptr CStr} (hmade : madeAt P created = .ok made) (soap : Soap)
    (hash : SmdSha1) : Settles made n (soapWsseSessionVerify P soap hash created (some n)) Accepted := by
  refine ⟨trivial, ?_⟩
  rintro now ⟨hlow, hhigh⟩
  change Settles made n (lift (soapS2dateTime P.strict P.mktime soap.error created) >>= _) _
  obtain ⟨error, hread⟩ : ∃ error, soapS2dateTime P.strict P.mktime soap.error created = .ok (error, made) := by
    have h := madeAt_eq P soap.error created
    rw [hmade] at h
    rcases hr : soapS2dateTime P.strict P.mktime soap.error created with e | ⟨error, m⟩
    · rw [hr] at h
      cases h
    · rw [hr] at h
      cases h
      exact ⟨error, rfl⟩
  have haccept : ∀ soap : Soap, Settles made n (soapWsseSessionUpdate hash (made + wsseNoncetime) now (some n) >>=
      fun replayed => if replayed then .ret (soapWsseFault soap .failedAuthentication none)
        else .ret ⟨soapOk, soap, none⟩) Accepted := by
    intro soap
    apply (update_settles hash _ now).bind
    rintro _ rfl
    exact ⟨_, rfl, rfl⟩
  rw [hread]
  simp only [lift_ok, ret_bind, if_neg (not_lt.mpr hlow), if_neg (not_le.mpr hhigh)]
  split_ifs
  · apply cleanup_settles.bind
    exact fun _ _ => haccept _
  · exact haccept _

theorem digest_settles {P : Platform} {created item password : CStr} {nonce : WsseEncodedString}
    (hmade : madeAt P (some created) = .ok made) (hn : nonce.item = some n)
    (henc : nonce.encodingType = none ∨ nonce.encodingType = some wsseBase64BinaryURI ∨
      nonce.encodingType = some wsseHexBinaryURI)
    (hdigest : ∀ stack, calcDigest P created (nonceBytes nonce) password = suppliedDigest item stack) (soap : Soap) :
    Settles made n (soapWsseVerifyDigest P soap item nonce created password) Accepted := by
  unfold soapWsseVerifyDigest
  rw [if_pos henc]
  apply Settles.bind (decodeNonce_meets (fun _ _ h => h) soap nonce)
  rintro ⟨bytes, soap⟩ rfl
  refine ⟨trivial, fun stack _ => ?_⟩
  change Settles made n (if _ then _ else _) _
  rw [if_pos (hdigest stack), hn]
  exact session_settles hmade _ _

theorem password_settles {P : Platform} {soap : Soap} {created item password : CStr} {nonce : WsseEncodedString}
    (hdigest : HasDigest soap nonce created item) (hitem : item.length = 28)
    (hmade : madeAt P (some created) = .ok made) (hn : nonce.item = some n)
    (henc : nonce.encodingType = none ∨ nonce.encodingType = some wsseBase64BinaryURI ∨
      nonce.encodingType = some wsseHexBinaryURI)
    (heq : ∀ stack, calcDigest P created (nonceBytes nonce) password = suppliedDigest item stack) :
    Settles made n (soapWsseVerifyPassword P soap password) Accepted := by
  obtain ⟨token, supplied, ht, hp, htype, hi, hnonce, hcreated⟩ := hdigest
  simp only [soapWsseVerifyPassword, ht, hp, htype, ↓reduceIte, hnonce, hcreated, hi, deref_some, ret_bind, hitem]
  exact digest_settles hmade hn henc heq soap

end Acceptance

section Safety

/-- Memory is there, and in the array stands something of `stack`. -/
def Found (stack : SmdSha1 → Prop) : (o : ServerOp) → o.Ans → Prop
  | .soapMalloc _, found => found = true
  | .stack, x => stack x
  | _, _ => True

variable {α β : Type} {stack : SmdSha1 → Prop}

/-- With memory at hand and the array as it was found, the program crashes only where `why` holds. -/
abbrev CrashesBy (stack : SmdSha1 → Prop) (why : Prop) (p : Program server α) : Prop :=
  p.Meets (Found stack) (fun _ => True) fun r => ∀ e, r = .error e → e = .memory ∧ why

theorem CrashesBy.bind {why : Prop} {p : Program server α} {f : α → Program server β} (h : CrashesBy stack why p)
    (hf : ∀ a, CrashesBy stack why (f a)) : CrashesBy stack why (p >>= f) := by
  apply meets_bind.mpr
  apply h.mono fun _ _ => trivial
  intro r hr
  cases r with
  | error e => exact fun e' he' => hr e' (congrArg _ (Except.error.inj he'))
  | ok a => exact hf a

theorem crashesBy_ret {why : Prop} (a : α) : CrashesBy stack why (.ret a : Program server α) := nofun

theorem purge_crashesBy {why : Prop} (now : ℤ) (l : List Session) : CrashesBy stack why (purge now l) := by
  induction l with
  | nil => exact crashesBy_ret _
  | cons s l ih =>
    simp only [purge]
    split_ifs
    · exact ⟨trivial, fun _ _ => ih⟩
    · exact ih

theorem cleanup_crashesBy {why : Prop} : CrashesBy stack why soapWsseSessionCleanup := by
  refine ⟨trivial, fun now _ => ⟨trivial, fun _ _ => ⟨trivial, fun l _ => ?_⟩⟩⟩
  apply (purge_crashesBy now l).bind
  exact fun _ => ⟨trivial, fun _ _ => crashesBy_ret _⟩

theorem add_crashesBy {why : Prop} (session : Session) (now : ℤ) :
    CrashesBy stack why (soapWsseSessionAdd session now) := by
  refine ⟨trivial, ?_⟩
  rintro (_ | _) _
  · exact crashesBy_ret _
  · exact ⟨trivial, fun _ _ => crashesBy_ret _⟩

theorem update_crashesBy {why : Prop} (hash : SmdSha1) (expired now : ℤ) {nonce : Ptr CStr}
    (hwhy : nonce = none → why) : CrashesBy stack why (soapWsseSessionUpdate hash expired now nonce) := by
  refine ⟨trivial, fun _ _ => ⟨trivial, fun l _ => ?_⟩⟩
  change CrashesBy stack why (lift (findSession hash nonce l) >>= _)
  cases hf : findSession hash nonce l with
  | error e =>
    obtain ⟨rfl, hn⟩ := findSession_error hf
    intro e' he'
    exact ⟨(Except.error.inj he').symm, hwhy hn⟩
  | ok found =>
    simp only [lift_ok, ret_bind]
    cases found with
    | some s => exact ⟨trivial, fun _ _ => crashesBy_ret _⟩
    | none =>
      cases nonce with
      | none =>
        intro e' he'
        exact ⟨(Except.error.inj he').symm, hwhy rfl⟩
      | some n =>
        simp only [deref_some, ret_bind]
        apply (add_crashesBy _ now).bind
        exact fun _ => ⟨trivial, fun _ _ => crashesBy_ret _⟩

theorem past_error {s : List UInt8} {e : Fault} (h : past s = .error e) : e = .memory := by
  cases s with
  | nil => exact (Except.error.inj h).symm
  | cons c s => cases h

theorem dateFields_error {strict : Bool} {s : List UInt8} {e : Fault} (h : dateFields strict s = .error e) :
    e = .memory := by
  simp only [dateFields] at h
  split_ifs at h
  · cases hp : past (strtoulEnd (strtoulEnd s).2.tail).2 with
    | error e' =>
      rw [hp] at h
      exact (Except.error.inj h) ▸ past_error hp
    | ok t =>
      rw [hp] at h
      cases h
  · cases h
  · cases h

theorem timeFields_error {strict : Bool} {T : Tm} {t : List UInt8} {e : Fault} (h : timeFields strict T t = .error e) :
    e = .memory := by
  simp only [timeFields] at h
  split_ifs at h
  · cases hp : past (strtoulEnd (strtoulEnd t.tail).2.tail).2 with
    | error e' =>
      rw [hp] at h
      exact (Except.error.inj h) ▸ past_error hp
    | ok t =>
      rw [hp] at h
      cases h
  all_goals cases h

theorem soapS2dateTime_error {strict : Bool} {mktime : Tm → ℤ} {error : ℤ} {s : Ptr CStr} {e : Fault}
    (h : soapS2dateTime strict mktime error s = .error e) : e = .memory := by
  cases s with
  | none => cases h
  | some s =>
    simp only [soapS2dateTime] at h
    split_ifs at h
    rcases hdate : dateFields strict s.bytes with e' | _ | ⟨T, t⟩ <;> rw [hdate] at h
    · exact (Except.error.inj h) ▸ dateFields_error hdate
    · cases h
    · simp only [Bind.bind, Except.bind] at h
      rcases htime : timeFields strict T t with e' | _ | ⟨T, t⟩ <;> rw [htime] at h
      · exact (Except.error.inj h) ▸ timeFields_error htime
      · cases h
      · simp only at h
        split at h <;> cases h

theorem session_crashesBy {P : Platform} {why : Prop} (soap : Soap) (hash : SmdSha1) {created nonce : Ptr CStr}
    (hmade : madeAt P created = .error .memory → why) (hnonce : nonce = none → why) :
    CrashesBy stack why (soapWsseSessionVerify P soap hash created nonce) := by
  refine ⟨trivial, fun now _ => ?_⟩
  change CrashesBy stack why (lift (soapS2dateTime P.strict P.mktime soap.error created) >>= _)
  cases hp : soapS2dateTime P.strict P.mktime soap.error created with
  | error e =>
    have he := soapS2dateTime_error hp
    subst he
    intro e' he'
    refine ⟨(Except.error.inj he').symm, hmade ?_⟩
    rw [← madeAt_eq P soap.error, hp]
    rfl
  | ok x =>
    simp only [lift_ok, ret_bind]
    split_ifs
    · exact crashesBy_ret _
    · exact crashesBy_ret _
    · apply cleanup_crashesBy.bind
      intro _
      apply (update_crashesBy hash _ now hnonce).bind
      rintro (_ | _) <;> exact crashesBy_ret _
    · apply (update_crashesBy hash _ now hnonce).bind
      rintro (_ | _) <;> exact crashesBy_ret _

theorem digest_crashesBy {P : Platform} {why : Prop} (soap : Soap) {item created password : CStr}
    {nonce : WsseEncodedString} (hwhy : ∀ x, stack x → calcDigest P created (nonceBytes nonce) password =
      suppliedDigest item x → nonce.item = none ∨ madeAt P (some created) = .error .memory → why) :
    CrashesBy stack why (soapWsseVerifyDigest P soap item nonce created password) := by
  unfold soapWsseVerifyDigest
  split_ifs
  · have hdecode : (decodeNonce soap nonce).Meets (Found stack) (fun _ => True)
        fun r => ∃ a, r = .ok a ∧ a.1 = nonceBytes nonce := decodeNonce_meets (fun _ _ h => h) soap nonce
    apply meets_bind.mpr
    apply hdecode.mono fun _ _ => trivial
    rintro _ ⟨⟨bytes, soap⟩, rfl, rfl⟩
    refine ⟨trivial, fun x hx => ?_⟩
    change CrashesBy stack why (if _ then _ else _)
    split_ifs with heq
    · exact session_crashesBy _ _ (fun h => hwhy x hx heq (.inr h)) fun h => hwhy x hx heq (.inl h)
    · exact crashesBy_ret _
  · exact crashesBy_ret _

/-- A digest token without a text, or one whose text reads as the digest of the password but that
lacks a nonce or has a time of creation that is not read to its end. -/
def Crashing (P : Platform) (soap : Soap) (password : CStr) (stack : SmdSha1 → Prop) : Prop :=
  (∃ token supplied, soapWsseUsernameToken soap none = some token ∧ token.password = some supplied ∧
    supplied.type = some wssePasswordDigestURI ∧ supplied.item = none) ∨
  ∃ nonce created item x, HasDigest soap nonce created item ∧ item.length = 28 ∧ stack x ∧
    calcDigest P created (nonceBytes nonce) password = suppliedDigest item x ∧
    (nonce.item = none ∨ madeAt P (some created) = .error .memory)

theorem password_crashesBy (P : Platform) (soap : Soap) (password : CStr) :
    CrashesBy stack (Crashing P soap password stack) (soapWsseVerifyPassword P soap password) := by
  unfold soapWsseVerifyPassword
  cases ht : soapWsseUsernameToken soap none with
  | none => exact crashesBy_ret _
  | some token =>
    simp only
    cases hp : token.password with
    | none => exact crashesBy_ret _
    | some supplied =>
      simp only
      split_ifs with htype htext
      · cases hn : token.nonce with
        | none => exact crashesBy_ret _
        | some nonce =>
          cases hc : token.wsuCreated with
          | none => exact crashesBy_ret _
          | some created =>
            cases hi : supplied.item with
            | none =>
              intro e he
              exact ⟨(Except.error.inj he).symm, .inl ⟨token, supplied, ht, hp, htype, hi⟩⟩
            | some item =>
              simp only [deref_some, ret_bind]
              split_ifs with hlen
              · apply digest_crashesBy
                intro x hx heq hlacks
                exact .inr ⟨nonce, created, item, x, ⟨token, supplied, ht, hp, htype, hi, hn, hc⟩, hlen, hx, heq,
                  hlacks⟩
              · exact crashesBy_ret _
      · exact crashesBy_ret _
      · exact crashesBy_ret _

/-- With memory at hand, a request crashes the check only by a digest token without a text, or once its
text has been read as the digest of the password. -/
theorem verify_crashes {P : Platform} {soap : Soap} {password : CStr} {t : Trace} {e : Fault}
    (h : Runs (soapWsseVerifyPassword P soap password) t (.error e))
    (hmem : ∀ n found, ⟨.soapMalloc n, found⟩ ∈ t → found = true) :
    e = .memory ∧ Crashing P soap password fun stack => ⟨.stack, stack⟩ ∈ t := by
  have hcrash : CrashesBy (fun stack => ⟨.stack, stack⟩ ∈ t) _ _ := password_crashesBy P soap password
  apply (Meets.runs hcrash h ?_).2 e rfl
  rintro ⟨o, x⟩ hx
  cases o with
  | soapMalloc n => exact hmem n x hx
  | stack => exact hx
  | _ => trivial

def truncatedDigest : SmdSha1 :=
  #v[237, 99, 120, 59, 181, 145, 244, 90, 177, 237, 225, 195, 246, 0, 228, 106, 225, 0, 205, 187]

theorem truncated_crashes : (checkRun truncatedDigest (.lit "1970-01")).2.1 = .error .memory := by decide +kernel

theorem verify_crashes_on_truncated_date :
    .memory = Fault.memory ∧
      Crashing (hashing truncatedDigest) (presenting truncatedDigest (.lit "1970-01")) (.lit "secret")
        fun stack => ⟨.stack, stack⟩ ∈ (checkRun truncatedDigest (.lit "1970-01")).1 := by
  apply verify_crashes (truncated_crashes ▸ checkRun_runs truncatedDigest (.lit "1970-01"))
  intro n found hfound
  obtain ⟨_, hx⟩ := exec_answered _ _ _ _ hfound
  exact hx

end Safety

end OnvifSdk.PasswordCheck
