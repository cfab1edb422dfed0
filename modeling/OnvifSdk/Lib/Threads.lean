import OnvifSdk.Lib.Program

namespace OnvifSdk.Lib.Threads

open Program

variable {S : Signature} {α β σ ι δ : Type}

/-- Threads over a shared memory: `act` is what an operation of a thread can do, and an operation
that cannot act waits; `drift` is what the memory does on its own. -/
structure Memory (S : Signature) (ι σ : Type) where
  act : ι → σ → (o : S.Op) → S.Ans o → σ → Prop
  drift : σ → σ → Prop

/-- What each thread may count on (`rely`), what it may do (`allow`) and what its steps keep to
(`guar`). -/
structure Discipline (S : Signature) (ι σ : Type) where
  rely : ι → σ → σ → Prop
  guar : ι → σ → σ → Prop
  allow : ι → σ → S.Op → Prop

structure Discipline.Fits (D : Discipline S ι σ) (M : Memory S ι σ) : Prop where
  rely_trans : ∀ i s s' s'', D.rely i s s' → D.rely i s' s'' → D.rely i s s''
  rely_refl : ∀ i s, D.rely i s s
  guar_rely : ∀ i j s s', i ≠ j → D.guar i s s' → D.rely j s s'
  drift_rely : ∀ j s s', M.drift s s' → D.rely j s s'

section Thread

variable (M : Memory S ι σ) (D : Discipline S ι σ) (i : ι)

/-- From here on thread `i` keeps to its part, and it ends in `post`. -/
def Keeps (post : α → σ → Prop) : Program S α → σ → Prop
  | .ret a, s => ∀ s', D.rely i s s' → post a s'
  | .stop _, _ => True
  | .op o k, s => ∀ s', D.rely i s s' → D.allow i s' o ∧
      ∀ x s'', M.act i s' o x s'' → D.guar i s' s'' ∧ Keeps post (k x) s''

variable {M D i}

theorem Keeps.rely {post : α → σ → Prop} (hD : D.Fits M) {p : Program S α} {s s' : σ}
    (h : Keeps M D i post p s) (hs : D.rely i s s') : Keeps M D i post p s' := by
  cases p with
  | ret a => exact fun s'' h' => h s'' (hD.rely_trans _ _ _ _ hs h')
  | stop e => trivial
  | op o k => exact fun s'' h' => h s'' (hD.rely_trans _ _ _ _ hs h')

theorem Keeps.bind {post : α → σ → Prop} {post' : β → σ → Prop} (hD : D.Fits M) {p : Program S α}
    {f : α → Program S β} {s : σ} (h : Keeps M D i post p s)
    (hf : ∀ a s', post a s' → Keeps M D i post' (f a) s') : Keeps M D i post' (p >>= f) s := by
  induction p generalizing s with
  | ret a => exact hf a s (h s (hD.rely_refl i s))
  | stop e => trivial
  | op o k ih =>
    intro s' hs
    refine ⟨(h s' hs).1, ?_⟩
    intro x s'' hx
    exact ⟨((h s' hs).2 x s'' hx).1, ih x ((h s' hs).2 x s'' hx).2⟩

def Stable (D : Discipline S ι σ) (i : ι) (P : σ → Prop) : Prop := ∀ s s', P s → D.rely i s s' → P s'

theorem Keeps.ret {post : α → σ → Prop} {a : α} {s : σ} (hs : Stable D i (post a)) (h : post a s) :
    Keeps M D i post (.ret a) s := fun s' => hs s s' h

theorem Keeps.op {post : α → σ → Prop} {P : σ → Prop} {o : S.Op} {k : S.Ans o → Program S α} {s : σ}
    (hP : Stable D i P) (h : P s) (ha : ∀ s, P s → D.allow i s o)
    (hk : ∀ s x s', P s → M.act i s o x s' → D.guar i s s' ∧ Keeps M D i post (k x) s') :
    Keeps M D i post (.op o k) s :=
  fun s' hs => ⟨ha s' (hP s s' h hs), fun x s'' hx => hk s' x s'' (hP s s' h hs) hx⟩

end Thread

structure State (S : Signature) (ι α σ : Type) where
  memory : σ
  thread : ι → Program S α

variable [DecidableEq ι]

inductive Step (M : Memory S ι σ) : State S ι α σ → State S ι α σ → Prop
  | act {s : State S ι α σ} {i : ι} {o : S.Op} {k : S.Ans o → Program S α} (h : s.thread i = .op o k)
      {x : S.Ans o} {m : σ} (hm : M.act i s.memory o x m) :
      Step M s ⟨m, Function.update s.thread i (k x)⟩
  | drift {s : State S ι α σ} {m : σ} (hm : M.drift s.memory m) : Step M s { s with memory := m }

abbrev Reaches (M : Memory S ι σ) : State S ι α σ → State S ι α σ → Prop :=
  Relation.ReflTransGen (Step M)

variable {M : Memory S ι σ} {D : Discipline S ι σ} {post : ι → α → σ → Prop}

def State.Kept (M : Memory S ι σ) (D : Discipline S ι σ) (post : ι → α → σ → Prop) (s : State S ι α σ) : Prop :=
  ∀ i, Keeps M D i (post i) (s.thread i) s.memory

theorem Step.kept (hD : D.Fits M) {s s' : State S ι α σ} (h : Step M s s') (hs : s.Kept M D post) :
    s'.Kept M D post ∧ ((∃ i, D.guar i s.memory s'.memory) ∨ M.drift s.memory s'.memory) := by
  cases h with
  | @act i o k h x m hm =>
    have hi := hs i
    rw [h] at hi
    obtain ⟨-, hk⟩ := hi s.memory (hD.rely_refl i _)
    obtain ⟨hg, hk⟩ := hk x m hm
    refine ⟨?_, .inl ⟨i, hg⟩⟩
    intro j
    by_cases hj : j = i
    · subst hj
      simpa only [Function.update_self] using hk
    · simp only [Function.update_of_ne hj]
      exact (hs j).rely hD (hD.guar_rely i j _ _ (Ne.symm hj) hg)
  | drift hm =>
    exact ⟨fun j => (hs j).rely hD (hD.drift_rely j _ _ hm), .inr hm⟩

theorem Reaches.kept (hD : D.Fits M) {s s' : State S ι α σ} (h : Reaches M s s') (hs : s.Kept M D post) :
    s'.Kept M D post := by
  induction h with
  | refl => exact hs
  | tail _ hstep ih => exact (hstep.kept hD ih).1

theorem Reaches.invariant (hD : D.Fits M) {I : σ → Prop}
    (hg : ∀ i s s', D.guar i s s' → I s → I s') (hd : ∀ s s', M.drift s s' → I s → I s')
    {s s' : State S ι α σ} (h : Reaches M s s') (hs : s.Kept M D post) (hI : I s.memory) : I s'.memory := by
  induction h with
  | refl => exact hI
  | tail h hstep ih =>
    rcases (hstep.kept hD (Reaches.kept hD h hs)).2 with ⟨i, hgi⟩ | hdr
    · exact hg i _ _ hgi ih
    · exact hd _ _ hdr ih

omit [DecidableEq ι] in
theorem State.Kept.allowed (hD : D.Fits M) {s : State S ι α σ} (hs : s.Kept M D post) {i : ι} {o : S.Op}
    {k : S.Ans o → Program S α} (hi : s.thread i = .op o k) : D.allow i s.memory o := by
  have hk := hs i
  rw [hi] at hk
  exact (hk s.memory (hD.rely_refl i _)).1

omit [DecidableEq ι] in
theorem State.Kept.ended (hD : D.Fits M) {s : State S ι α σ} (hs : s.Kept M D post) {i : ι} {a : α}
    (hi : s.thread i = .ret a) : post i a s.memory := by
  have hk := hs i
  rw [hi] at hk
  exact hk s.memory (hD.rely_refl i _)

/-- The threads take their steps, and the memory its own, in the order of a schedule. -/
def State.play (env : ι → σ → (o : S.Op) → Option (S.Ans o × σ)) (shift : δ → σ → σ) (s : State S ι α σ) :
    List (ι ⊕ δ) → Option (State S ι α σ)
  | [] => some s
  | .inl i :: is =>
    match s.thread i with
    | .op o k =>
      (env i s.memory o).bind fun r => State.play env shift ⟨r.2, Function.update s.thread i (k r.1)⟩ is
    | _ => none
  | .inr d :: is => State.play env shift { s with memory := shift d s.memory } is

theorem State.play_reaches {env : ι → σ → (o : S.Op) → Option (S.Ans o × σ)} {shift : δ → σ → σ}
    (henv : ∀ i m o r, env i m o = some r → M.act i m o r.1 r.2) (hshift : ∀ d m, M.drift m (shift d m))
    {s s' : State S ι α σ} {is : List (ι ⊕ δ)} (h : s.play env shift is = some s') : Reaches M s s' := by
  induction is generalizing s with
  | nil =>
    cases h
    exact .refl
  | cons i is ih =>
    cases i with
    | inl i =>
      simp only [State.play] at h
      split at h
      · rename_i o k hi
        obtain ⟨r, hr, hrest⟩ := Option.bind_eq_some_iff.mp h
        exact .head (.act hi (henv i s.memory o r hr)) (ih hrest)
      · cases h
    | inr d => exact .head (.drift (hshift d s.memory)) (ih h)

end OnvifSdk.Lib.Threads
