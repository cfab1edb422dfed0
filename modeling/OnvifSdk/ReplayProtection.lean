import OnvifSdk.PasswordCheck
import OnvifSdk.Lib.Threads

namespace OnvifSdk.ReplayProtection

open Lib Program Gsoap Threads PasswordCheck

/-- A token that has entered the table: the time that its check read, and the latest that the clock
had shown to anyone when the token was recorded. -/
structure Passed where
  session : Session
  began : ℤ
  recorded : ℤ

-- `latest` and `passed` are there for the statements alone.
structure Table (ι : Type) where
  clock : ℤ
  latest : ℤ
  owner : Option ι := none
  sessions : List Session := []
  passed : List Passed := []

variable {ι : Type}

inductive Acts (i : ι) : Table ι → (o : ServerOp) → o.Ans → Table ι → Prop
  | time {m : Table ι} : Acts i m .time m.clock m
  | soapMalloc {m : Table ι} (n : ℕ) (found : Bool) : Acts i m (.soapMalloc n) found m
  | stack {m : Table ι} (x : SmdSha1) : Acts i m .stack x m
  | lock {m : Table ι} (h : m.owner = none) : Acts i m .lock () { m with owner := some i }
  | sessions {m : Table ι} : Acts i m .sessions m.sessions m
  | unlink {m : Table ι} (session : Session) :
      Acts i m (.unlink session) () { m with sessions := m.sessions.erase session }
  | mallocSession {m : Table ι} (n : ℕ) (found : Bool) : Acts i m (.mallocSession n) found m
  | push {m : Table ι} (session : Session) (now : ℤ) : Acts i m (.push session now) ()
      { m with sessions := session :: m.sessions, passed := ⟨session, now, m.latest⟩ :: m.passed }
  | unlock {m : Table ι} : Acts i m .unlock () { m with owner := none }

def Table.set (m : Table ι) (t : ℤ) : Table ι := { m with clock := t, latest := max m.latest t }

/-- The clock runs on its own, and it may be set to any time. -/
def memory (ι : Type) : Memory server ι (Table ι) where
  act := Acts
  drift m m' := ∃ t, m' = m.set t

structure Call where
  soap : Soap
  password : CStr

def serve (P : Platform) : List Call → Program server Unit
  | [] => .ret ()
  | c :: cs => do
    let _ ← soapWsseVerifyPassword P c.soap c.password
    serve P cs

def Same (s s' : Session) : Prop := s.hash = s'.hash ∧ s.nonce = s'.nonce

/-- What the table promises. Behind the newest token of `passed` stand the older ones. -/
structure Table.Sound (m : Table ι) : Prop where
  shown : m.clock ≤ m.latest
  distinct : m.sessions.Pairwise fun s s' => ¬ Same s s'
  listed : ∀ p ∈ m.passed, p.session ∈ m.sessions ∨ p.session.expired < m.latest
  fresh : ∀ p ∈ m.passed, p.began < p.session.expired ∧ p.began ≤ p.recorded ∧ p.recorded ≤ m.latest
  spaced : m.passed.Pairwise fun newer older =>
    Same newer.session older.session → older.session.expired < newer.recorded

def Accesses : ServerOp → Prop
  | .sessions | .unlink _ | .push _ _ | .unlock => True
  | _ => False

def discipline (ι : Type) : Discipline server ι (Table ι) where
  rely i m m' := (m.Sound → m'.Sound) ∧ m.latest ≤ m'.latest ∧ (m.owner = some i ↔ m'.owner = some i) ∧
    (m.owner = some i → m'.sessions = m.sessions)
  guar i m m' := (m.Sound → m'.Sound) ∧ m.latest ≤ m'.latest ∧
    ∀ j, j ≠ i → (m.owner = some j ↔ m'.owner = some j) ∧ (m.owner = some j → m'.sessions = m.sessions)
  allow i m o := (Accesses o → m.owner = some i) ∧ (o = .lock → m.owner ≠ some i)

theorem Table.Sound.set {m : Table ι} (h : m.Sound) (t : ℤ) : (m.set t).Sound := by
  have hlatest : m.latest ≤ max m.latest t := le_max_left _ _
  refine ⟨le_max_right _ _, h.distinct, ?_, ?_, h.spaced⟩
  · intro p hp
    exact (h.listed p hp).imp_right fun hs => lt_of_lt_of_le hs hlatest
  · intro p hp
    obtain ⟨hb, hr, hc⟩ := h.fresh p hp
    exact ⟨hb, hr, hc.trans hlatest⟩

theorem Table.Sound.unlink {m : Table ι} (h : m.Sound) {s : Session} (hs : s.expired < m.latest) :
    Table.Sound { m with sessions := m.sessions.erase s } := by
  refine ⟨h.shown, h.distinct.sublist List.erase_sublist, ?_, h.fresh, h.spaced⟩
  intro p hp
  rcases h.listed p hp with hl | he
  · by_cases heq : p.session = s
    · exact .inr (heq ▸ hs)
    · exact .inl ((List.mem_erase_of_ne heq).mpr hl)
  · exact .inr he

theorem Table.Sound.push {m : Table ι} (h : m.Sound) {s : Session} {now : ℤ}
    (hs : ∀ s' ∈ m.sessions, ¬ Same s s') (hnow : now < s.expired) (hlatest : now ≤ m.latest) :
    Table.Sound { m with sessions := s :: m.sessions, passed := ⟨s, now, m.latest⟩ :: m.passed } := by
  refine ⟨h.shown, List.pairwise_cons.mpr ⟨hs, h.distinct⟩, ?_, ?_, List.pairwise_cons.mpr ⟨?_, h.spaced⟩⟩
  · intro p hp
    rcases List.mem_cons.mp hp with rfl | hp
    · exact .inl List.mem_cons_self
    · exact (h.listed p hp).imp_left (List.mem_cons_of_mem s)
  · intro p hp
    rcases List.mem_cons.mp hp with rfl | hp
    · exact ⟨hnow, hlatest, le_rfl⟩
    · exact h.fresh p hp
  · intro p hp hsame
    rcases h.listed p hp with hl | he
    · exact absurd hsame (hs _ hl)
    · exact he

theorem discipline_fits : (discipline ι).Fits (memory ι) := by
  constructor
  · rintro i m m' m'' ⟨hs, hc, ho, hl⟩ ⟨hs', hc', ho', hl'⟩
    exact ⟨hs' ∘ hs, hc.trans hc', ho.trans ho', fun h => (hl' (ho.mp h)).trans (hl h)⟩
  · exact fun i m => ⟨id, le_rfl, Iff.rfl, fun _ => rfl⟩
  · rintro i j m m' hij ⟨hs, hc, hj⟩
    exact ⟨hs, hc, hj j hij.symm⟩
  · rintro j m m' ⟨t, rfl⟩
    exact ⟨fun h => h.set t, le_max_left _ _, Iff.rfl, fun _ => rfl⟩

section Thread

variable (i : ι)

def Outside (now : ℤ) (m : Table ι) : Prop := m.Sound ∧ m.owner ≠ some i ∧ now ≤ m.latest

def Inside (now : ℤ) (m : Table ι) : Prop := m.Sound ∧ m.owner = some i ∧ now ≤ m.latest

def Reading (now : ℤ) (sessions : List Session) (m : Table ι) : Prop := Inside i now m ∧ m.sessions = sessions

variable {i} {now : ℤ}

theorem outside_stable : Stable (discipline ι) i (Outside i now) := by
  rintro m m' ⟨hm, ho, hn⟩ ⟨hs, hc, ho', -⟩
  exact ⟨hs hm, fun h => ho (ho'.mpr h), hn.trans hc⟩

theorem inside_stable : Stable (discipline ι) i (Inside i now) := by
  rintro m m' ⟨hm, ho, hn⟩ ⟨hs, hc, ho', -⟩
  exact ⟨hs hm, ho'.mp ho, hn.trans hc⟩

theorem reading_stable {sessions : List Session} : Stable (discipline ι) i (Reading i now sessions) := by
  rintro m m' ⟨hm, hl⟩ hr
  exact ⟨inside_stable m m' hm hr, (hr.2.2.2 hm.2.1).trans hl⟩

theorem guar_refl (m : Table ι) : (discipline ι).guar i m m := ⟨id, le_rfl, fun _ _ => ⟨Iff.rfl, fun _ => rfl⟩⟩

/-- What thread `i` does while it holds the lock leaves the other threads their part. -/
theorem guar_inside {m m' : Table ι} (h : m.owner = some i) (hs : m.Sound → m'.Sound) (hc : m'.latest = m.latest)
    (ho : m'.owner = m.owner ∨ m'.owner = none) : (discipline ι).guar i m m' := by
  refine ⟨hs, hc.ge, ?_⟩
  intro j hj
  have hne : m.owner ≠ some j := fun he => hj (Option.some.inj (he.symm.trans h))
  refine ⟨⟨fun he => absurd he hne, ?_⟩, fun he => absurd he hne⟩
  intro he
  rcases ho with ho | ho
  · exact ho ▸ he
  · rw [ho] at he
    cases he

theorem Table.Sound.owned {m : Table ι} (h : m.Sound) (owner : Option ι) :
    Table.Sound { m with owner := owner } := ⟨h.shown, h.distinct, h.listed, h.fresh, h.spaced⟩

theorem Outside.earlier {now' : ℤ} (h : now' ≤ now) {m : Table ι} (hm : Outside i now m) : Outside i now' m :=
  ⟨hm.1, hm.2.1, h.trans hm.2.2⟩

theorem findSession_none {hash : SmdSha1} {n : CStr} {expired : ℤ} {sessions : List Session}
    (h : findSession hash (some n) sessions = .ok none) : ∀ s ∈ sessions, ¬ Same ⟨expired, hash, n⟩ s := by
  induction sessions with
  | nil => simp
  | cons s sessions ih =>
    have hrest : findSession hash (some n) sessions = .ok none ∧ ¬ Same ⟨expired, hash, n⟩ s := by
      simp only [findSession] at h
      by_cases hh : s.hash = hash
      · by_cases hn : s.nonce = n
        · simp [hh, hn] at h
        · simp only [hh, hn, ↓reduceIte] at h
          exact ⟨h, fun hsame => hn hsame.2.symm⟩
      · simp only [hh, ↓reduceIte] at h
        exact ⟨h, fun hsame => hh hsame.1.symm⟩
    intro s' hs'
    rcases List.mem_cons.mp hs' with rfl | hs'
    · exact hrest.2
    · exact ih hrest.1 s' hs'

variable {α : Type} {post : α → Table ι → Prop}

theorem keeps_apart {p : Table ι → Prop} (hp : Stable (discipline ι) i p) {o : ServerOp}
    {k : o.Ans → Program server α} {m : Table ι} (h : p m) (ho : ¬ Accesses o ∧ o ≠ .lock)
    (hact : ∀ m x m', Acts i m o x m' → m' = m) (hk : ∀ x m, p m → Keeps (memory ι) (discipline ι) i post (k x) m) :
    Keeps (memory ι) (discipline ι) i post (.op o k) m := by
  apply Keeps.op hp h
  · exact fun m _ => ⟨fun ha => absurd ha ho.1, fun hl => absurd hl ho.2⟩
  · intro m x m' hm hx
    obtain rfl := hact m x m' hx
    exact ⟨guar_refl m', hk x m' hm⟩

theorem keeps_time {m : Table ι} (h : Outside i now m) {k : ℤ → Program server α}
    (hk : ∀ t m, Outside i (max now t) m → Keeps (memory ι) (discipline ι) i post (k t) m) :
    Keeps (memory ι) (discipline ι) i post (.op .time k) m := by
  apply Keeps.op outside_stable h
  · exact fun m _ => ⟨nofun, nofun⟩
  · rintro m t m' ⟨hm, ho, hn⟩ ⟨⟩
    exact ⟨guar_refl m, hk m.clock m ⟨hm, ho, max_le hn hm.shown⟩⟩

theorem keeps_lock {m : Table ι} (h : Outside i now m) {k : Unit → Program server α}
    (hk : ∀ m, Inside i now m → Keeps (memory ι) (discipline ι) i post (k ()) m) :
    Keeps (memory ι) (discipline ι) i post (.op .lock k) m := by
  apply Keeps.op outside_stable h
  · exact fun m hm => ⟨nofun, fun _ => hm.2.1⟩
  · rintro m _ m' ⟨hm, ho, hn⟩ ⟨⟩
    rename_i hfree
    refine ⟨⟨fun h => h.owned _, le_rfl, ?_⟩, hk _ ⟨hm.owned _, rfl, hn⟩⟩
    intro j hj
    exact ⟨⟨fun he => by simp [hfree] at he, fun he => absurd (Option.some.inj he) hj.symm⟩, fun _ => rfl⟩

theorem keeps_sessions {m : Table ι} (h : Inside i now m) {k : List Session → Program server α}
    (hk : ∀ l m, Reading i now l m → Keeps (memory ι) (discipline ι) i post (k l) m) :
    Keeps (memory ι) (discipline ι) i post (.op .sessions k) m := by
  apply Keeps.op inside_stable h
  · exact fun m hm => ⟨fun _ => hm.2.1, nofun⟩
  · rintro m _ m' hm ⟨⟩
    exact ⟨guar_refl m, hk _ m ⟨hm, rfl⟩⟩

theorem keeps_unlock {m : Table ι} (h : Inside i now m) {k : Unit → Program server α}
    (hk : ∀ m, Outside i now m → Keeps (memory ι) (discipline ι) i post (k ()) m) :
    Keeps (memory ι) (discipline ι) i post (.op .unlock k) m := by
  apply Keeps.op inside_stable h
  · exact fun m hm => ⟨fun _ => hm.2.1, nofun⟩
  · rintro m _ m' ⟨hm, ho, hn⟩ ⟨⟩
    exact ⟨guar_inside ho (fun h => h.owned _) rfl (.inr rfl), hk _ ⟨hm.owned _, nofun, hn⟩⟩

theorem keeps_purge {m : Table ι} {t : ℤ} (ht : t ≤ now) (h : Inside i now m) (sessions : List Session) :
    Keeps (memory ι) (discipline ι) i (fun _ => Inside i now) (purge t sessions) m := by
  induction sessions generalizing m with
  | nil => exact .ret inside_stable h
  | cons s sessions ih =>
    simp only [purge]
    split_ifs with hs
    · apply Keeps.op inside_stable h
      · intro m hm
        constructor
        · exact fun _ => hm.2.1
        · rintro ⟨⟩
      · rintro m _ m' ⟨hm, ho, hn⟩ ⟨⟩
        have hexp := lt_of_lt_of_le hs (ht.trans hn)
        exact ⟨guar_inside ho (fun h => h.unlink hexp) rfl (.inl rfl), ih ⟨hm.unlink hexp, ho, hn⟩⟩
    · exact ih h

theorem keeps_cleanup {m : Table ι} (h : Outside i now m) :
    Keeps (memory ι) (discipline ι) i (fun _ => Outside i now) soapWsseSessionCleanup m := by
  apply keeps_time h
  intro t m hm
  apply keeps_lock hm
  intro m hm
  apply keeps_sessions hm
  intro l m hm
  apply Keeps.bind discipline_fits (keeps_purge (le_max_right _ _) hm.1 l)
  intro _ m hm
  apply keeps_unlock hm
  exact fun m hm => .ret outside_stable (hm.earlier (le_max_left _ _))

theorem keeps_add {m : Table ι} {s : Session} {l : List Session} {t : ℤ} (ht : t ≤ now) (h : Reading i now l m)
    (hs : ∀ s' ∈ l, ¬ Same s s') (hfresh : t < s.expired) :
    Keeps (memory ι) (discipline ι) i (fun _ => Inside i now) (soapWsseSessionAdd s t) m := by
  apply keeps_apart (o := .mallocSession _) reading_stable h ⟨nofun, nofun⟩
  · rintro m x m' ⟨⟩
    rfl
  · intro found m hm
    cases found with
    | false => exact .ret inside_stable hm.1
    | true =>
      apply Keeps.op reading_stable hm
      · exact fun m hm => ⟨fun _ => hm.1.2.1, nofun⟩
      · rintro m _ m' ⟨⟨hsound, ho, hn⟩, hl⟩ ⟨⟩
        have hs' : ∀ s' ∈ m.sessions, ¬ Same s s' := hl ▸ hs
        exact ⟨guar_inside ho (fun h => h.push hs' hfresh (ht.trans hn)) rfl (.inl rfl),
          .ret inside_stable ⟨hsound.push hs' hfresh (ht.trans hn), ho, hn⟩⟩

theorem keeps_update {m : Table ι} {t : ℤ} (ht : t ≤ now) (h : Outside i now m) (hash : SmdSha1) {expired : ℤ}
    (hfresh : t < expired) (nonce : Ptr CStr) : Keeps (memory ι) (discipline ι) i (fun _ => Outside i now)
      (soapWsseSessionUpdate hash expired t nonce) m := by
  apply keeps_lock h
  intro m hm
  apply keeps_sessions hm
  intro l m hm
  change Keeps _ _ i _ (lift (findSession hash nonce l) >>= _) m
  cases hf : findSession hash nonce l with
  | error e => trivial
  | ok found =>
    simp only [lift_ok, ret_bind]
    cases found with
    | some s =>
      apply keeps_unlock hm.1
      exact fun m hm => .ret outside_stable hm
    | none =>
      cases nonce with
      | none => trivial
      | some n =>
        apply Keeps.bind discipline_fits (keeps_add ht hm (findSession_none hf) hfresh)
        intro _ m hm
        apply keeps_unlock hm
        exact fun m hm => .ret outside_stable hm

theorem keeps_verdict {m : Table ι} {t : ℤ} (h : Outside i (max now t) m) (hash : SmdSha1) {expired : ℤ}
    (hfresh : t < expired) (nonce : Ptr CStr) {f : Bool → Program server Verdict} (hf : ∀ b, ∃ v, f b = .ret v) :
    Keeps (memory ι) (discipline ι) i (fun _ => Outside i now)
      (soapWsseSessionUpdate hash expired t nonce >>= f) m := by
  apply Keeps.bind discipline_fits (keeps_update (le_max_right _ _) h hash hfresh nonce)
  intro replayed m hm
  obtain ⟨v, hv⟩ := hf replayed
  rw [hv]
  exact .ret outside_stable (hm.earlier (le_max_left _ _))

theorem keeps_session {m : Table ι} (h : Outside i now m) (P : Platform) (soap : Soap) (hash : SmdSha1)
    (created nonce : Ptr CStr) : Keeps (memory ι) (discipline ι) i (fun _ => Outside i now)
      (soapWsseSessionVerify P soap hash created nonce) m := by
  apply keeps_time h
  intro t m hm
  have hlater : now ≤ max now t := le_max_left _ _
  change Keeps _ _ i _ (lift (soapS2dateTime P.strict P.mktime soap.error created) >>= _) m
  cases hp : soapS2dateTime P.strict P.mktime soap.error created with
  | error e => trivial
  | ok x =>
    simp only [lift_ok, ret_bind]
    have hf : ∀ v v' : Verdict, ∀ b : Bool, ∃ w,
        (if b = true then .ret v else .ret v' : Program server Verdict) = .ret w := by
      rintro v v' (_ | _) <;> exact ⟨_, rfl⟩
    split_ifs with hfuture hexpired hpurge
    · exact .ret outside_stable (hm.earlier hlater)
    · exact .ret outside_stable (hm.earlier hlater)
    · apply Keeps.bind discipline_fits (keeps_cleanup hm)
      intro _ m hm
      exact keeps_verdict hm hash (not_le.mp hexpired) nonce (hf _ _)
    · exact keeps_verdict hm hash (not_le.mp hexpired) nonce (hf _ _)

theorem keeps_soapMalloc {m : Table ι} (h : Outside i now m) (n : ℕ) {k : Bool → Program server α}
    (hk : ∀ found m, Outside i now m → Keeps (memory ι) (discipline ι) i post (k found) m) :
    Keeps (memory ι) (discipline ι) i post (.op (.soapMalloc n) k) m := by
  apply keeps_apart (o := .soapMalloc n) outside_stable h ⟨nofun, nofun⟩
  · rintro m x m' ⟨⟩
    rfl
  · exact hk

theorem keeps_base642sNew {m : Table ι} (h : Outside i now m) (soap : Soap) (s : Ptr CStr) :
    Keeps (memory ι) (discipline ι) i (fun _ => Outside i now) (soapBase642sNew soap s) m := by
  cases s with
  | none => exact .ret outside_stable h
  | some s =>
    simp only [soapBase642sNew]
    split_ifs with hs
    · exact .ret outside_stable h
    · apply keeps_soapMalloc h
      rintro (_ | _) m hm
      · trivial
      · exact .ret outside_stable hm

theorem keeps_hex2sNew {m : Table ι} (h : Outside i now m) (soap : Soap) (s : Ptr CStr) :
    Keeps (memory ι) (discipline ι) i (fun _ => Outside i now) (soapHex2sNew soap s) m := by
  cases s with
  | none => exact .ret outside_stable h
  | some s =>
    simp only [soapHex2sNew]
    split_ifs with hs
    · exact .ret outside_stable h
    · apply keeps_soapMalloc h
      rintro (_ | _) m hm
      · trivial
      · exact .ret outside_stable hm

theorem keeps_digest {m : Table ι} (h : Outside i now m) (P : Platform) (soap : Soap) (item : CStr)
    (nonce : WsseEncodedString) (created password : CStr) :
    Keeps (memory ι) (discipline ι) i (fun _ => Outside i now)
      (soapWsseVerifyDigest P soap item nonce created password) m := by
  unfold soapWsseVerifyDigest
  split_ifs with henc
  · have hdecode : Keeps (memory ι) (discipline ι) i (fun _ => Outside i now) (decodeNonce soap nonce) m := by
      unfold decodeNonce
      split_ifs
      · exact keeps_hex2sNew h soap nonce.item
      · exact keeps_base642sNew h soap nonce.item
    apply Keeps.bind discipline_fits hdecode
    rintro ⟨bytes, soap⟩ m hm
    apply keeps_apart (o := .stack) outside_stable hm ⟨nofun, nofun⟩
    · rintro m x m' ⟨⟩
      rfl
    · intro stack m hm
      change Keeps _ _ i _ (if _ then _ else _) m
      split_ifs
      · exact keeps_session hm P _ _ _ _
      · exact .ret outside_stable hm
  · exact .ret outside_stable h

theorem keeps_password {m : Table ι} (h : Outside i now m) (P : Platform) (soap : Soap) (password : CStr) :
    Keeps (memory ι) (discipline ι) i (fun _ => Outside i now) (soapWsseVerifyPassword P soap password) m := by
  have hret : ∀ v : Verdict, Keeps (memory ι) (discipline ι) i (fun _ => Outside i now) (.ret v) m :=
    fun v => .ret outside_stable h
  unfold soapWsseVerifyPassword
  cases ht : soapWsseUsernameToken soap none with
  | none => exact hret _
  | some token =>
    simp only
    cases hp : token.password with
    | none => exact hret _
    | some supplied =>
      simp only
      split_ifs
      · cases hn : token.nonce with
        | none => exact hret _
        | some nonce =>
          cases hc : token.wsuCreated with
          | none => exact hret _
          | some created =>
            cases hi : supplied.item with
            | none => trivial
            | some item =>
              simp only [deref_some, ret_bind]
              split_ifs
              · exact keeps_digest h P soap item nonce created password
              · exact hret _
      · exact hret _
      · exact hret _

theorem keeps_serve {m : Table ι} (h : Outside i now m) (P : Platform) (calls : List Call) :
    Keeps (memory ι) (discipline ι) i (fun _ => Outside i now) (serve P calls) m := by
  induction calls generalizing m with
  | nil => exact .ret outside_stable h
  | cons c calls ih =>
    apply Keeps.bind discipline_fits (keeps_password h P c.soap c.password)
    exact fun _ m hm => ih hm

end Thread

section Service

variable [DecidableEq ι] (P : Platform) (calls : ι → List Call) (clock : ℤ)

def start : State server ι Unit (Table ι) := ⟨{ clock := clock, latest := clock }, fun i => serve P (calls i)⟩

variable {P calls clock} {s : State server ι Unit (Table ι)}

omit [DecidableEq ι] in
theorem start_sound : (start P calls clock).memory.Sound :=
  ⟨le_rfl, .nil, nofun, nofun, .nil⟩

omit [DecidableEq ι] in
theorem start_kept : (start P calls clock).Kept (memory ι) (discipline ι) fun i _ => Outside i clock := by
  intro i
  apply keeps_serve
  exact ⟨start_sound, nofun, le_rfl⟩

theorem reaches_sound (h : Reaches (memory ι) (start P calls clock) s) : s.memory.Sound := by
  apply Reaches.invariant discipline_fits _ _ h start_kept start_sound
  · exact fun i m m' hg => hg.1
  · rintro m m' ⟨t, rfl⟩ hm
    exact hm.set t

/-- What the table answers while memory is found. -/
def answer (i : ι) (m : Table ι) : (o : ServerOp) → Option (o.Ans × Table ι)
  | .time => some (m.clock, m)
  | .soapMalloc _ => some (true, m)
  | .stack => some (Vector.replicate 20 0, m)
  | .lock => if m.owner = none then some ((), { m with owner := some i }) else none
  | .sessions => some (m.sessions, m)
  | .unlink s => some ((), { m with sessions := m.sessions.erase s })
  | .mallocSession _ => some (true, m)
  | .push s now => some ((), { m with sessions := s :: m.sessions, passed := ⟨s, now, m.latest⟩ :: m.passed })
  | .unlock => some ((), { m with owner := none })

omit [DecidableEq ι] in
theorem answer_acts (i : ι) (m : Table ι) (o : ServerOp) (r : o.Ans × Table ι) (h : answer i m o = some r) :
    Acts i m o r.1 r.2 := by
  cases o with
  | lock =>
    simp only [answer] at h
    split_ifs at h with hfree
    cases h
    exact .lock hfree
  | _ =>
    cases h
    constructor

def laterDigest : SmdSha1 :=
  #v[132, 50, 149, 172, 109, 125, 167, 60, 40, 207, 178, 233, 209, 202, 248, 233, 30, 0, 110, 82]

/-- The SHA-1 of the two texts that the threads below hash. -/
def hashingBoth : Platform where
  sha1 text := if text = List.replicate 20 0 ++ (CStr.lit "1970-01-01T00:00:00Zsecret").bytes then epochDigest
    else laterDigest
  strict := false
  mktime := timegm

/-- Two threads check the same token, and a third one a token that was made five minutes later. -/
def trio : State server (Fin 3) Unit (Table (Fin 3)) :=
  start hashingBoth ![[⟨epochSoap, .lit "secret"⟩], [⟨epochSoap, .lit "secret"⟩],
    [⟨presenting laterDigest (.lit "1970-01-01T00:05:00Z"), .lit "secret"⟩]] 1

def playTrio (schedule : List (Fin 3 ⊕ ℤ)) : Option (State server (Fin 3) Unit (Table (Fin 3))) :=
  trio.play answer (fun t m => m.set t) schedule

theorem playTrio_reaches {schedule : List (Fin 3 ⊕ ℤ)} {s : State server (Fin 3) Unit (Table (Fin 3))}
    (h : playTrio schedule = some s) : Reaches (memory (Fin 3)) trio s :=
  State.play_reaches (M := memory (Fin 3)) answer_acts (fun t _ => ⟨t, rfl⟩) h

/-- The second thread reads the clock while the token is fresh and stays behind until the third one
has thrown the token out. -/
def overtaken : List (Fin 3 ⊕ ℤ) :=
  List.replicate 8 (.inl 0) ++ .inr 539 :: List.replicate 3 (.inl 1) ++ .inr 550 :: List.replicate 13 (.inl 2) ++
    List.replicate 5 (.inl 1)

theorem overtaken_records : ((playTrio overtaken).map fun s =>
    s.memory.passed.map fun p => (p.session.hash, p.began, p.recorded)) =
      some [(epochDigest, 539, 550), (laterDigest, 550, 550), (epochDigest, 1, 1)] := by
  decide +kernel

/-- Whatever the threads do to each other and however the clock is set, a token is recorded a second
time only after the clock has shown a time at which it was over, and only by a check that read one at
which it was not. -/
theorem recorded_again (h : Reaches (memory ι) (start P calls clock) s) :
    s.memory.passed.Pairwise fun newer older => Same newer.session older.session →
      older.session.expired < newer.recorded ∧
        (newer.session.expired = older.session.expired → newer.began < older.session.expired) := by
  have hs := reaches_sound h
  apply hs.spaced.imp_of_mem
  intro newer older hnewer _ hspaced hsame
  exact ⟨hspaced hsame, fun he => he ▸ (hs.fresh newer hnewer).1⟩

theorem recorded_again_overtaken : ∃ s, playTrio overtaken = some s ∧
    (s.memory.passed.map fun p => (p.session.hash, p.began, p.recorded)) =
      [(epochDigest, 539, 550), (laterDigest, 550, 550), (epochDigest, 1, 1)] ∧
    s.memory.passed.Pairwise fun newer older => Same newer.session older.session →
      older.session.expired < newer.recorded ∧
        (newer.session.expired = older.session.expired → newer.began < older.session.expired) := by
  obtain ⟨s, hs, hpassed⟩ := Option.map_eq_some_iff.mp overtaken_records
  exact ⟨s, hs, hpassed, recorded_again (playTrio_reaches hs)⟩

omit [DecidableEq ι] in
theorem acts_of_allowed {i : ι} {m : Table ι} {o : ServerOp} (hlock : o = .lock → m.owner = none) :
    ∃ x m', Acts i m o x m' := by
  cases o with
  | time => exact ⟨_, _, .time⟩
  | soapMalloc n => exact ⟨_, _, .soapMalloc n true⟩
  | stack => exact ⟨_, _, .stack (Vector.replicate 20 0)⟩
  | lock => exact ⟨_, _, .lock (hlock rfl)⟩
  | sessions => exact ⟨_, _, .sessions⟩
  | unlink session => exact ⟨_, _, .unlink session⟩
  | mallocSession n => exact ⟨_, _, .mallocSession n true⟩
  | push session now => exact ⟨_, _, .push session now⟩
  | unlock => exact ⟨_, _, .unlock⟩

/-- The list of sessions is read and written under the lock alone, and unless a thread has crashed
with it, the threads never block each other for good. -/
theorem sessions_locked (h : Reaches (memory ι) (start P calls clock) s) :
    (∀ i o k, s.thread i = .op o k → Accesses o → s.memory.owner = some i) ∧
      ((∀ i e, s.memory.owner = some i → s.thread i ≠ .stop e) → (∃ i o k, s.thread i = .op o k) →
        ∃ i o k x m, s.thread i = .op o k ∧ Acts i s.memory o x m) := by
  have hk := Reaches.kept discipline_fits h start_kept
  refine ⟨fun i o k hi => (hk.allowed discipline_fits hi).1, ?_⟩
  rintro hcrash ⟨i, o, k, hi⟩
  cases ho : s.memory.owner with
  | none =>
    obtain ⟨x, m, hact⟩ := acts_of_allowed (i := i) (o := o) fun _ => ho
    exact ⟨i, o, k, x, m, hi, hact⟩
  | some j =>
    cases hj : s.thread j with
    | ret a => exact absurd ho (hk.ended discipline_fits hj).2.1
    | stop e => exact absurd hj (hcrash j e ho)
    | op o' k' =>
      have hne : o' ≠ .lock := fun he => (hk.allowed discipline_fits hj).2 he ho
      obtain ⟨x, m, hact⟩ := acts_of_allowed (i := j) (m := s.memory) (o := o') fun he => absurd he hne
      exact ⟨j, o', k', x, m, hj, hact⟩

/-- The first thread stands inside, the second one before the lock. -/
def contended : List (Fin 3 ⊕ ℤ) := List.replicate 4 (.inl 0) ++ List.replicate 3 (.inl 1)

def Waits : Program server Unit → Bool
  | .op .lock _ => true
  | _ => false

theorem contended_waits : ((playTrio contended).map fun s => (s.memory.owner, Waits (s.thread 1))) =
    some (some 0, true) := by
  decide +kernel

theorem sessions_locked_contended : ∃ s, playTrio contended = some s ∧ s.memory.owner = some 0 ∧
    Waits (s.thread 1) = true ∧
    (∀ i o k, s.thread i = .op o k → Accesses o → s.memory.owner = some i) ∧
      ((∀ i e, s.memory.owner = some i → s.thread i ≠ .stop e) → (∃ i o k, s.thread i = .op o k) →
        ∃ i o k x m, s.thread i = .op o k ∧ Acts i s.memory o x m) := by
  obtain ⟨s, hs, hwaits⟩ := Option.map_eq_some_iff.mp contended_waits
  obtain ⟨howner, hwaits⟩ := Prod.mk.inj hwaits
  exact ⟨s, hs, howner, hwaits, sessions_locked (playTrio_reaches hs)⟩

end Service

end OnvifSdk.ReplayProtection
