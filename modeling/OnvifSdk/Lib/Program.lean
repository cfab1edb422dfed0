import Mathlib

namespace OnvifSdk.Lib

structure Signature where
  Op : Type
  Ans : Op → Type

/-- `exhausted` belongs to the model: a loop that was given too little fuel. -/
inductive Fault
  | assertion
  | memory
  | exhausted
  deriving DecidableEq, Repr

inductive Program (S : Signature) (α : Type) : Type
  | ret (a : α)
  | op (o : S.Op) (k : S.Ans o → Program S α)
  | stop (f : Fault)

abbrev Event (S : Signature) := Σ o : S.Op, S.Ans o

abbrev Outcome (α : Type) := Except Fault α

namespace Program

variable {S : Signature} {α β γ σ : Type}

def bind : Program S α → (α → Program S β) → Program S β
  | .ret a, f => f a
  | .op o k, f => .op o (fun x => (k x).bind f)
  | .stop e, _ => .stop e

instance : Monad (Program S) where
  pure := .ret
  bind := bind

@[simp] def perform (o : S.Op) : Program S (S.Ans o) := .op o .ret

def lift : Outcome α → Program S α
  | .ok a => .ret a
  | .error e => .stop e

def require (c : Bool) : Program S Unit := if c then .ret () else .stop .assertion

def deref : Option α → Program S α
  | some a => .ret a
  | none => .stop .memory

@[simp] theorem pure_eq (a : α) : (pure a : Program S α) = .ret a := rfl

@[simp] theorem ret_bind (a : α) (f : α → Program S β) : (Program.ret a >>= f) = f a := rfl

@[simp] theorem stop_bind (e : Fault) (f : α → Program S β) : (Program.stop e >>= f) = .stop e := rfl

@[simp] theorem op_bind (o : S.Op) (k : S.Ans o → Program S α) (f : α → Program S β) :
    (Program.op o k >>= f) = .op o (fun x => k x >>= f) := rfl

theorem bind_assoc (p : Program S α) (f : α → Program S β) (g : β → Program S γ) :
    ((p >>= f) >>= g) = (p >>= fun a => f a >>= g) := by
  induction p with
  | ret a => rfl
  | op o k ih => simp only [op_bind, ih]
  | stop e => rfl

@[simp] theorem lift_ok (a : α) : (lift (.ok a) : Program S α) = .ret a := rfl

@[simp] theorem lift_error (e : Fault) : (lift (.error e) : Program S α) = .stop e := rfl

@[simp] theorem require_true : (require true : Program S Unit) = .ret () := rfl

@[simp] theorem require_false : (require false : Program S Unit) = .stop .assertion := rfl

@[simp] theorem deref_some (a : α) : (deref (some a) : Program S α) = .ret a := rfl

@[simp] theorem deref_none : (deref none : Program S α) = .stop .memory := rfl

/-- `Runs p t r`: with the answers recorded in `t`, the program `p` makes exactly the calls of `t`
and ends with `r`. -/
inductive Runs : Program S α → List (Event S) → Outcome α → Prop
  | ret (a : α) : Runs (.ret a) [] (.ok a)
  | stop (e : Fault) : Runs (.stop e) [] (.error e)
  | op (o : S.Op) (k : S.Ans o → Program S α) (x : S.Ans o) {t : List (Event S)} {r : Outcome α}
      (h : Runs (k x) t r) : Runs (.op o k) (⟨o, x⟩ :: t) r

@[simp] theorem runs_ret {a : α} {t : List (Event S)} {r : Outcome α} :
    Runs (.ret a) t r ↔ t = [] ∧ r = .ok a := by
  constructor
  · rintro ⟨⟩; exact ⟨rfl, rfl⟩
  · rintro ⟨rfl, rfl⟩; exact .ret a

@[simp] theorem runs_stop {e : Fault} {t : List (Event S)} {r : Outcome α} :
    Runs (.stop e) t r ↔ t = [] ∧ r = .error e := by
  constructor
  · rintro ⟨⟩; exact ⟨rfl, rfl⟩
  · rintro ⟨rfl, rfl⟩; exact .stop e

@[simp] theorem runs_op {o : S.Op} {k : S.Ans o → Program S α} {t : List (Event S)} {r : Outcome α} :
    Runs (.op o k) t r ↔ ∃ x t', t = ⟨o, x⟩ :: t' ∧ Runs (k x) t' r := by
  constructor
  · rintro (_ | _ | ⟨o, k, x, h⟩); exact ⟨x, _, rfl, h⟩
  · rintro ⟨x, t', rfl, h⟩; exact .op o k x h

theorem runs_bind {p : Program S α} {f : α → Program S β} {t : List (Event S)} {r : Outcome β} :
    Runs (p >>= f) t r ↔ (∃ e, Runs p t (.error e) ∧ r = .error e) ∨
      ∃ a t₁ t₂, t = t₁ ++ t₂ ∧ Runs p t₁ (.ok a) ∧ Runs (f a) t₂ r := by
  induction p generalizing t with
  | ret a => simp
  | stop e => simp
  | op o k ih =>
    simp only [op_bind, runs_op, ih]
    constructor
    · rintro ⟨x, t', rfl, ⟨e, h, rfl⟩ | ⟨a, t₁, t₂, rfl, h₁, h₂⟩⟩
      · exact .inl ⟨e, ⟨x, t', rfl, h⟩, rfl⟩
      · exact .inr ⟨a, ⟨o, x⟩ :: t₁, t₂, rfl, ⟨x, t₁, rfl, h₁⟩, h₂⟩
    · rintro (⟨e, ⟨x, t', rfl, h⟩, rfl⟩ | ⟨a, _, t₂, rfl, ⟨x, t₁, rfl, h₁⟩, h₂⟩)
      · exact ⟨x, t', rfl, .inl ⟨e, h, rfl⟩⟩
      · exact ⟨x, t₁ ++ t₂, rfl, .inr ⟨a, t₁, t₂, rfl, h₁, h₂⟩⟩

theorem Runs.bind_ok {p : Program S α} {f : α → Program S β} {a : α} {t₁ t₂ : List (Event S)}
    {r : Outcome β} (h₁ : Runs p t₁ (.ok a)) (h₂ : Runs (f a) t₂ r) : Runs (p >>= f) (t₁ ++ t₂) r :=
  runs_bind.mpr (.inr ⟨a, t₁, t₂, rfl, h₁, h₂⟩)

theorem Runs.of_bind {p : Program S α} {f : α → Program S β} {t : List (Event S)} {b : β}
    (h : Runs (p >>= f) t (.ok b)) :
    ∃ a t₁ t₂, t = t₁ ++ t₂ ∧ Runs p t₁ (.ok a) ∧ Runs (f a) t₂ (.ok b) := by
  rcases runs_bind.mp h with ⟨e, _, hr⟩ | h
  · cases hr
  · exact h

theorem runs_map {p : Program S α} {g : α → β} {t : List (Event S)} {r : Outcome β} :
    Runs (p >>= fun a => .ret (g a)) t r ↔ ∃ r', Runs p t r' ∧ r = r'.map g := by
  rw [runs_bind]
  constructor
  · rintro (⟨e, h, rfl⟩ | ⟨a, t₁, t₂, rfl, h, h'⟩)
    · exact ⟨_, h, rfl⟩
    · obtain ⟨rfl, rfl⟩ := runs_ret.mp h'
      exact ⟨_, by rwa [List.append_nil], rfl⟩
  · rintro ⟨e | a, h, rfl⟩
    · exact .inl ⟨e, h, rfl⟩
    · exact .inr ⟨a, t, [], (List.append_nil t).symm, h, .ret _⟩

section Refinement

def RefinesUpTo (e : Fault) (p q : Program S α) : Prop :=
  ∀ t r, Runs p t r → r ≠ .error e → Runs q t r

variable {e : Fault}

theorem RefinesUpTo.refl (p : Program S α) : RefinesUpTo e p p := fun _ _ h _ => h

theorem refinesUpTo_stop (q : Program S α) : RefinesUpTo e (.stop e) q :=
  fun _ _ h hr => absurd (runs_stop.mp h).2 hr

theorem RefinesUpTo.bind {p q : Program S α} {f g : α → Program S β} (h : RefinesUpTo e p q)
    (hf : ∀ a, RefinesUpTo e (f a) (g a)) : RefinesUpTo e (p >>= f) (q >>= g) := by
  intro t r ht hr
  rcases runs_bind.mp ht with ⟨e', h₁, rfl⟩ | ⟨a, t₁, t₂, rfl, h₁, h₂⟩
  · apply runs_bind.mpr
    exact .inl ⟨e', h _ _ h₁ (fun he => hr (congrArg _ (Except.error.inj he))), rfl⟩
  · exact (h _ _ h₁ nofun).bind_ok (hf a _ _ h₂ hr)

end Refinement

section Exec

def exec (env : σ → (o : S.Op) → S.Ans o × σ) : Program S α → σ → List (Event S) × Outcome α × σ
  | .ret a, s => ([], .ok a, s)
  | .stop e, s => ([], .error e, s)
  | .op o k, s =>
    let (x, s') := env s o
    let (t, r, s'') := (k x).exec env s'
    (⟨o, x⟩ :: t, r, s'')

variable (env : σ → (o : S.Op) → S.Ans o × σ)

@[simp] theorem exec_ret (a : α) (s : σ) : exec env (.ret a) s = ([], .ok a, s) := rfl

@[simp] theorem exec_stop (e : Fault) (s : σ) :
    exec env (.stop e : Program S α) s = ([], .error e, s) := rfl

@[simp] theorem exec_op (o : S.Op) (k : S.Ans o → Program S α) (s : σ) :
    exec env (.op o k) s = (⟨o, (env s o).1⟩ :: (exec env (k (env s o).1) (env s o).2).1,
      (exec env (k (env s o).1) (env s o).2).2) := rfl

theorem exec_runs (p : Program S α) (s : σ) :
    Runs p (exec env p s).1 (exec env p s).2.1 := by
  induction p generalizing s with
  | ret a => exact .ret a
  | stop e => exact .stop e
  | op o k ih => exact .op o k _ (ih _ _)

theorem exec_bind_ok {p : Program S α} {f : α → Program S β} {s s' : σ} {t : List (Event S)} {a : α}
    (h : exec env p s = (t, .ok a, s')) :
    exec env (p >>= f) s = (t ++ (exec env (f a) s').1, (exec env (f a) s').2) := by
  induction p generalizing s t with
  | ret b =>
    obtain ⟨rfl, hr⟩ := Prod.mk.inj h
    obtain ⟨hb, rfl⟩ := Prod.mk.inj hr
    cases Except.ok.inj hb
    rfl
  | stop e =>
    have he : Except.error e = Except.ok a := (Prod.mk.inj (Prod.mk.inj h).2).1
    cases he
  | op o k ih =>
    obtain ⟨rfl, hr⟩ := Prod.mk.inj h
    have hk := ih (env s o).1 (Prod.ext rfl hr)
    rw [op_bind, exec_op, hk]
    rfl

theorem exec_answered (p : Program S α) (s : σ) :
    ∀ e ∈ (exec env p s).1, ∃ s', e.2 = (env s' e.1).1 := by
  induction p generalizing s with
  | ret a => nofun
  | stop e => nofun
  | op o k ih =>
    intro e he
    rcases List.mem_cons.mp he with rfl | he
    · exact ⟨s, rfl⟩
    · exact ih _ _ e he

end Exec

section Contracts

/-- `p.Meets rely guar post`: as long as the answers satisfy `rely`, every operation that `p`
performs satisfies `guar`, and if `p` ends, its result satisfies `post`. -/
def Meets (rely : (o : S.Op) → S.Ans o → Prop) (guar : S.Op → Prop) (post : Outcome α → Prop) :
    Program S α → Prop
  | .ret a => post (.ok a)
  | .stop e => post (.error e)
  | .op o k => guar o ∧ ∀ x, rely o x → (k x).Meets rely guar post

variable {rely : (o : S.Op) → S.Ans o → Prop} {guar guar' : S.Op → Prop}

@[simp] theorem meets_ret {post : Outcome α → Prop} {a : α} :
    (Program.ret a : Program S α).Meets rely guar post ↔ post (.ok a) := Iff.rfl

@[simp] theorem meets_stop {post : Outcome α → Prop} {e : Fault} :
    (Program.stop e : Program S α).Meets rely guar post ↔ post (.error e) := Iff.rfl

@[simp] theorem meets_op {post : Outcome α → Prop} {o : S.Op} {k : S.Ans o → Program S α} :
    (Program.op o k).Meets rely guar post ↔ guar o ∧ ∀ x, rely o x → (k x).Meets rely guar post :=
  Iff.rfl

theorem Meets.mono {post post' : Outcome α → Prop} {p : Program S α}
    (h : p.Meets rely guar post) (hg : ∀ o, guar o → guar' o) (hp : ∀ r, post r → post' r) :
    p.Meets rely guar' post' := by
  induction p with
  | ret a => exact hp _ h
  | stop e => exact hp _ h
  | op o k ih => exact ⟨hg o h.1, fun x hx => ih x (h.2 x hx)⟩

theorem meets_bind {post : Outcome β → Prop} {p : Program S α} {f : α → Program S β} :
    (p >>= f).Meets rely guar post ↔ p.Meets rely guar (fun r => match r with
      | .ok a => (f a).Meets rely guar post
      | .error e => post (.error e)) := by
  induction p with
  | ret a => rfl
  | stop e => rfl
  | op o k ih => simp only [op_bind, meets_op, ih]

theorem Meets.bind_any {post : Outcome β → Prop} {p : Program S α} {f : α → Program S β}
    (h : p.Meets rely guar (fun _ => True)) (hf : ∀ a, (f a).Meets rely guar post)
    (hp : ∀ e, post (.error e)) : (p >>= f).Meets rely guar post := by
  apply meets_bind.mpr
  apply h.mono (fun _ hg => hg)
  intro r _
  cases r with
  | ok a => exact hf a
  | error e => exact hp e

theorem Meets.runs {post : Outcome α → Prop} {p : Program S α} (h : p.Meets rely guar post)
    {t : List (Event S)} {r : Outcome α} (ht : Runs p t r) (hr : ∀ e ∈ t, rely e.1 e.2) :
    (∀ e ∈ t, guar e.1) ∧ post r := by
  induction ht with
  | ret a => exact ⟨by simp, h⟩
  | stop e => exact ⟨by simp, h⟩
  | op o k x ht ih =>
    obtain ⟨hg, hp⟩ := ih (h.2 x (hr ⟨o, x⟩ (by simp)))
      (fun e he => hr e (List.mem_cons_of_mem _ he))
    refine ⟨?_, hp⟩
    intro e he
    rcases List.mem_cons.mp he with rfl | he
    · exact h.1
    · exact hg e he

end Contracts

def Within (P : S.Op → Prop) (p : Program S α) : Prop :=
  p.Meets (fun _ _ => True) P (fun _ => True)

theorem Within.mono {P Q : S.Op → Prop} {p : Program S α} (h : p.Within P) (hq : ∀ o, P o → Q o) :
    p.Within Q := Meets.mono h hq (fun _ _ => trivial)

theorem Within.bind {P : S.Op → Prop} {p : Program S α} {f : α → Program S β} (h : p.Within P)
    (hf : ∀ a, (f a).Within P) : (p >>= f).Within P :=
  Meets.bind_any h hf (fun _ => trivial)

theorem Within.meets {P guar : S.Op → Prop} {rely : (o : S.Op) → S.Ans o → Prop} {p : Program S α}
    (h : p.Within P) (hg : ∀ o, P o → guar o) : p.Meets rely guar (fun _ => True) := by
  induction p with
  | ret a => trivial
  | stop e => trivial
  | op o k ih => exact ⟨hg o h.1, fun x _ => ih x (h.2 x trivial)⟩

theorem Within.exec_state {P : S.Op → Prop} {p : Program S α} (h : p.Within P)
    {env : σ → (o : S.Op) → S.Ans o × σ} (henv : ∀ s o, P o → (env s o).2 = s) (s : σ) :
    (exec env p s).2.2 = s := by
  induction p generalizing s with
  | ret a => rfl
  | stop e => rfl
  | op o k ih =>
    rw [exec_op]
    exact (ih _ (h.2 _ trivial) _).trans (henv s o h.1)

theorem Within.runs {P : S.Op → Prop} {p : Program S α} (h : p.Within P) {t : List (Event S)}
    {r : Outcome α} (ht : Runs p t r) : ∀ e ∈ t, P e.1 :=
  (Meets.runs h ht (fun _ _ => trivial)).1

end Program

end OnvifSdk.Lib
