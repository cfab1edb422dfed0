import OnvifSdk.Lib.Program

namespace OnvifSdk.Lib.Program

variable {S : Signature} {α β γ δ : Type}

def Related (R : α → β → Prop) : Outcome α → Outcome β → Prop
  | .ok a, .ok b => R a b
  | .error e, .error e' => e = e'
  | _, _ => False

/-- Two programs that perform the same operations as long as these are answered alike, and then
end alike, with results in `R`. -/
inductive Lockstep (R : α → β → Prop) : Program S α → Program S β → Prop
  | ret {a : α} {b : β} (h : R a b) : Lockstep R (.ret a) (.ret b)
  | stop (e : Fault) : Lockstep R (.stop e) (.stop e)
  | op (o : S.Op) {k : S.Ans o → Program S α} {k' : S.Ans o → Program S β}
      (h : ∀ x, Lockstep R (k x) (k' x)) : Lockstep R (.op o k) (.op o k')

variable {R : α → β → Prop} {T : γ → δ → Prop}

theorem Lockstep.refl (p : Program S α) : Lockstep Eq p p := by
  induction p with
  | ret a => exact .ret rfl
  | stop e => exact .stop e
  | op o k ih => exact .op o ih

theorem Lockstep.bind {p : Program S α} {q : Program S β} {f : α → Program S γ} {g : β → Program S δ}
    (h : Lockstep R p q) (hf : ∀ a b, R a b → Lockstep T (f a) (g b)) :
    Lockstep T (p >>= f) (q >>= g) := by
  induction h with
  | ret h => exact hf _ _ h
  | stop e => exact .stop e
  | op o h ih => exact .op o ih

theorem Lockstep.bind_same {f : α → Program S γ} {g : α → Program S δ} (p : Program S α)
    (hf : ∀ a, Lockstep T (f a) (g a)) : Lockstep T (p >>= f) (p >>= g) := by
  apply (Lockstep.refl p).bind
  rintro a _ rfl
  exact hf a

theorem Lockstep.runs {p : Program S α} {q : Program S β} (h : Lockstep R p q) {t : List (Event S)}
    {r : Outcome α} (ht : Runs p t r) : ∃ r', Runs q t r' ∧ Related R r r' := by
  induction h generalizing t with
  | ret h =>
    obtain ⟨rfl, rfl⟩ := runs_ret.mp ht
    exact ⟨_, .ret _, h⟩
  | stop e =>
    obtain ⟨rfl, rfl⟩ := runs_stop.mp ht
    exact ⟨_, .stop e, rfl⟩
  | op o h ih =>
    obtain ⟨x, t, rfl, hk⟩ := runs_op.mp ht
    obtain ⟨r', hr', hR⟩ := ih x hk
    exact ⟨r', .op o _ x hr', hR⟩

end OnvifSdk.Lib.Program
