import OnvifSdk.Lib.Program

namespace OnvifSdk.Lib.Clients

open Program

/-- Clients that share a server. A call runs its program; the operations in `Remote` are requests,
which the server takes by `handle`, and `lost` says what a client can see when a reply does not come.
The call goes with its requests for the sake of the statements alone. -/
structure System (S : Signature) (Call α σ : Type) where
  program : Call → Program S α
  Remote : S.Op → Prop
  handle : Call → σ → (o : S.Op) → S.Ans o → σ → Prop
  lost : (o : S.Op) → S.Ans o → Prop

inductive Control (S : Signature) (Call α : Type)
  | idle
  | running (c : Call) (p : Program S α)
  | asked (c : Call) (o : S.Op) (k : S.Ans o → Program S α)
  | answered (c : Call) (o : S.Op) (x : S.Ans o) (k : S.Ans o → Program S α)

/-- `orphans` are the requests on their way whose clients no longer wait for a reply. -/
structure State (S : Signature) (ι Call α σ : Type) where
  server : σ
  control : ι → Control S Call α
  todo : ι → List Call
  orphans : List (Call × S.Op)

variable {S : Signature} {ι Call α σ : Type} [DecidableEq ι]

def State.goTo (s : State S ι Call α σ) (i : ι) (c : Control S Call α) : State S ι Call α σ :=
  { s with control := Function.update s.control i c }

def State.serve (s : State S ι Call α σ) (server : σ) : State S ι Call α σ :=
  { s with server := server }

@[simp] theorem State.goTo_control (s : State S ι Call α σ) (i : ι) (c : Control S Call α) :
    (s.goTo i c).control i = c := by
  simp only [State.goTo, Function.update_self]

def initial (server : σ) (todo : ι → List Call) : State S ι Call α σ := ⟨server, fun _ => .idle, todo, []⟩

inductive Step (M : System S Call α σ) : State S ι Call α σ → State S ι Call α σ → Prop
  | start {s : State S ι Call α σ} {i : ι} {c : Call} {cs : List Call} (h : s.control i = .idle)
      (ht : s.todo i = c :: cs) :
      Step M s ({ s with todo := Function.update s.todo i cs }.goTo i (.running c (M.program c)))
  | finish {s : State S ι Call α σ} {i : ι} {c : Call} {a : α}
      (h : s.control i = .running c (.ret a)) : Step M s (s.goTo i .idle)
  | own {s : State S ι Call α σ} {i : ι} {c : Call} {o : S.Op} {k : S.Ans o → Program S α}
      (h : s.control i = .running c (.op o k)) (ho : ¬ M.Remote o) (x : S.Ans o) :
      Step M s (s.goTo i (.running c (k x)))
  | send {s : State S ι Call α σ} {i : ι} {c : Call} {o : S.Op} {k : S.Ans o → Program S α}
      (h : s.control i = .running c (.op o k)) (ho : M.Remote o) : Step M s (s.goTo i (.asked c o k))
  | handle {s : State S ι Call α σ} {i : ι} {c : Call} {o : S.Op} {k : S.Ans o → Program S α}
      (h : s.control i = .asked c o k) {x : S.Ans o} {server : σ}
      (hh : M.handle c s.server o x server) :
      Step M s ((s.serve server).goTo i (.answered c o x k))
  | receive {s : State S ι Call α σ} {i : ι} {c : Call} {o : S.Op} {x : S.Ans o}
      {k : S.Ans o → Program S α} (h : s.control i = .answered c o x k) :
      Step M s (s.goTo i (.running c (k x)))
  | loseReply {s : State S ι Call α σ} {i : ι} {c : Call} {o : S.Op} {x : S.Ans o}
      {k : S.Ans o → Program S α} (h : s.control i = .answered c o x k) {y : S.Ans o}
      (hy : M.lost o y) : Step M s (s.goTo i (.running c (k y)))
  | giveUp {s : State S ι Call α σ} {i : ι} {c : Call} {o : S.Op} {k : S.Ans o → Program S α}
      (h : s.control i = .asked c o k) {y : S.Ans o} (hy : M.lost o y) :
      Step M s ({ s with orphans := (c, o) :: s.orphans }.goTo i (.running c (k y)))
  | handleOrphan {s : State S ι Call α σ} {m m' : List (Call × S.Op)} {c : Call} {o : S.Op}
      (h : s.orphans = m ++ (c, o) :: m') {x : S.Ans o} {server : σ}
      (hh : M.handle c s.server o x server) :
      Step M s { s with server := server, orphans := m ++ m' }
  | loseOrphan {s : State S ι Call α σ} {m m' : List (Call × S.Op)} {c : Call} {o : S.Op}
      (h : s.orphans = m ++ (c, o) :: m') : Step M s { s with orphans := m ++ m' }

abbrev Reaches (M : System S Call α σ) : State S ι Call α σ → State S ι Call α σ → Prop :=
  Relation.ReflTransGen (Step M)

section Invariant

variable (rely : (o : S.Op) → S.Ans o → Prop) (guar : Call → S.Op → Prop) (I : σ → Prop)

/-- Every call keeps to `guar` as long as it is answered within `rely`, and the server, asked within
`guar`, keeps `I` and answers within `rely`. -/
structure Contract (M : System S Call α σ) : Prop where
  program : ∀ c, (M.program c).Meets rely (guar c) (fun _ => True)
  handle : ∀ {c s o x s'}, I s → guar c o → M.handle c s o x s' → I s' ∧ rely o x
  lost : ∀ {o x}, M.lost o x → rely o x
  own : ∀ {o} x, ¬ M.Remote o → rely o x

def Control.Sound : Control S Call α → Prop
  | .idle => True
  | .running c p => p.Meets rely (guar c) (fun _ => True)
  | .asked c o k => guar c o ∧ ∀ x, rely o x → (k x).Meets rely (guar c) (fun _ => True)
  | .answered c o x k => rely o x ∧ ∀ x, rely o x → (k x).Meets rely (guar c) (fun _ => True)

structure State.Sound (s : State S ι Call α σ) : Prop where
  server : I s.server
  control : ∀ i, (s.control i).Sound rely guar
  orphans : ∀ m ∈ s.orphans, guar m.1 m.2

variable {rely guar I} {M : System S Call α σ}

theorem State.Sound.goTo {s : State S ι Call α σ} (h : s.Sound rely guar I) {i : ι}
    {c : Control S Call α} (hc : c.Sound rely guar) : (s.goTo i c).Sound rely guar I := by
  refine ⟨h.server, ?_, h.orphans⟩
  intro j
  by_cases hj : j = i
  · subst hj
    simpa [State.goTo] using hc
  · simpa [State.goTo, hj] using h.control j

omit [DecidableEq ι] in
theorem State.Sound.controlled {s : State S ι Call α σ} (h : s.Sound rely guar I) {i : ι}
    {c : Control S Call α} (hc : s.control i = c) : c.Sound rely guar := hc ▸ h.control i

omit [DecidableEq ι] in
theorem State.Sound.without {s : State S ι Call α σ} (h : s.Sound rely guar I)
    {m m' : List (Call × S.Op)} {e : Call × S.Op} (he : s.orphans = m ++ e :: m') :
    ∀ e ∈ m ++ m', guar e.1 e.2 := by
  intro e' he'
  apply h.orphans e'
  rw [he]
  rcases List.mem_append.mp he' with hm | hm
  · exact List.mem_append_left _ hm
  · exact List.mem_append_right _ (List.mem_cons_of_mem _ hm)

theorem Step.sound (hM : Contract rely guar I M) {s s' : State S ι Call α σ} (h : Step M s s')
    (hs : s.Sound rely guar I) : s'.Sound rely guar I := by
  cases h with
  | @start i c cs h ht =>
    have hs' : State.Sound rely guar I { s with todo := Function.update s.todo i cs } :=
      ⟨hs.server, hs.control, hs.orphans⟩
    exact hs'.goTo (c := .running c _) (hM.program c)
  | finish h => exact hs.goTo trivial
  | @own i c o k h ho x =>
    have hc : (Program.op o k).Meets rely (guar c) (fun _ => True) := hs.controlled h
    exact hs.goTo (c := .running c _) (hc.2 x (hM.own x ho))
  | @send i c o k h ho =>
    have hc : (Program.op o k).Meets rely (guar c) (fun _ => True) := hs.controlled h
    exact hs.goTo (c := .asked c o k) hc
  | @handle i c o k h x server hh =>
    obtain ⟨hg, hk⟩ := hs.controlled h
    obtain ⟨hI, hr⟩ := hM.handle hs.server hg hh
    have hs' : (s.serve server).Sound rely guar I := ⟨hI, hs.control, hs.orphans⟩
    exact hs'.goTo (c := .answered c o x k) ⟨hr, hk⟩
  | @receive i c o x k h =>
    obtain ⟨hr, hk⟩ := hs.controlled h
    exact hs.goTo (c := .running c _) (hk x hr)
  | @loseReply i c o x k h y hy =>
    obtain ⟨_, hk⟩ := hs.controlled h
    exact hs.goTo (c := .running c _) (hk y (hM.lost hy))
  | @giveUp i c o k h y hy =>
    obtain ⟨hg, hk⟩ := hs.controlled h
    have hs' : State.Sound rely guar I { s with orphans := (c, o) :: s.orphans } := by
      refine ⟨hs.server, hs.control, ?_⟩
      intro m hm
      rcases List.mem_cons.mp hm with rfl | hm
      · exact hg
      · exact hs.orphans m hm
    exact hs'.goTo (c := .running c _) (hk y (hM.lost hy))
  | @handleOrphan m m' c o h x server hh =>
    have hg : guar c o := hs.orphans (c, o) (by rw [h]; simp)
    exact ⟨(hM.handle hs.server hg hh).1, hs.control, hs.without h⟩
  | loseOrphan h => exact ⟨hs.server, hs.control, hs.without h⟩

theorem Reaches.invariant (hM : Contract rely guar I M) {server : σ} (hI : I server)
    {todo : ι → List Call} {s : State S ι Call α σ} (h : Reaches M (initial server todo) s) :
    I s.server := by
  have hs : s.Sound rely guar I := by
    induction h with
    | refl => exact ⟨hI, fun _ => trivial, nofun⟩
    | tail _ hstep ih => exact hstep.sound hM ih
  exact hs.server

end Invariant

section Schedule

variable {M : System S Call α σ} {env : Call → σ → (o : S.Op) → S.Ans o × σ}

/-- The next step of one client; a request is sent, taken and answered at once. -/
def State.turn (M : System S Call α σ) (env : Call → σ → (o : S.Op) → S.Ans o × σ) (s : State S ι Call α σ) (i : ι) :
    Option (State S ι Call α σ) :=
  match s.control i with
  | .idle =>
    match s.todo i with
    | [] => none
    | c :: cs => some ({ s with todo := Function.update s.todo i cs }.goTo i (.running c (M.program c)))
  | .running _ (.ret _) => some (s.goTo i .idle)
  | .running c (.op o k) => some ((s.serve (env c s.server o).2).goTo i (.running c (k (env c s.server o).1)))
  | _ => none

/-- The clients take their steps in the order of a schedule. -/
def State.play (M : System S Call α σ) (env : Call → σ → (o : S.Op) → S.Ans o × σ) (s : State S ι Call α σ) :
    List ι → Option (State S ι Call α σ)
  | [] => some s
  | i :: is => (s.turn M env i).bind fun s => s.play M env is

theorem State.turn_reaches (hremote : ∀ c s o, M.Remote o → M.handle c s o (env c s o).1 (env c s o).2)
    (hown : ∀ c s o, ¬ M.Remote o → (env c s o).2 = s) {s s' : State S ι Call α σ} {i : ι}
    (h : s.turn M env i = some s') : Reaches M s s' := by
  unfold State.turn at h
  split at h
  · rename_i hidle
    split at h
    · cases h
    · rename_i c cs htodo
      obtain rfl := Option.some.inj h
      exact .single (.start hidle htodo)
  · rename_i c a hret
    obtain rfl := Option.some.inj h
    exact .single (.finish hret)
  · rename_i c o k hop
    obtain rfl := Option.some.inj h
    by_cases ho : M.Remote o
    · have hask := Step.send hop ho
      have hhandle := Step.handle (State.goTo_control s i (.asked c o k)) (hremote c s.server o ho)
      have hreceive := Step.receive (M := M) (State.goTo_control
        ((s.goTo i (.asked c o k)).serve (env c s.server o).2) i (.answered c o (env c s.server o).1 k))
      have hend := ((Relation.ReflTransGen.single hask).tail hhandle).tail hreceive
      simpa only [State.serve, State.goTo, Function.update_idem] using hend
    · have hstep := Step.own hop ho (env c s.server o).1
      have hserver : s.serve (env c s.server o).2 = s := by rw [hown c s.server o ho]; rfl
      rw [hserver]
      exact .single hstep
  · cases h

theorem State.play_append (s : State S ι Call α σ) (is js : List ι) :
    s.play M env (is ++ js) = (s.play M env is).bind fun s => s.play M env js := by
  induction is generalizing s with
  | nil => rfl
  | cons i is ih =>
    simp only [List.cons_append, State.play, Option.bind_assoc]
    congr 1
    funext s
    exact ih s

theorem State.play_reaches (hremote : ∀ c s o, M.Remote o → M.handle c s o (env c s o).1 (env c s o).2)
    (hown : ∀ c s o, ¬ M.Remote o → (env c s o).2 = s) {s s' : State S ι Call α σ} {is : List ι}
    (h : s.play M env is = some s') : Reaches M s s' := by
  induction is generalizing s with
  | nil =>
    cases h
    exact .refl
  | cons i is ih =>
    obtain ⟨s₁, h₁, h₂⟩ := Option.bind_eq_some_iff.mp h
    exact (State.turn_reaches hremote hown h₁).trans (ih h₂)

end Schedule

end OnvifSdk.Lib.Clients
