import OnvifSdk.ContextMemory

namespace OnvifSdk.ContextMemory

open Lib Memory Gsoap.Alloc

variable {ι : Type}

/-- The contexts that `soap_new` ever gives out, and the heap that they share. Before its first call a
context is as `soap_new` leaves it, and `live` says that `soap_free` has not taken it away. -/
structure System (ι : Type) where
  ctx : ι → Arena
  live : ι → Bool
  heap : Heap

/-- `free` is that of the caller. -/
inductive Op (ι : Type)
  | malloc (c : ι) (n place : ℕ) (fill : Content)
  | write (a : ℕ) (s : List UInt8)
  | dealloc (c : ι) (p : ℕ)
  | unlink (c : ι) (p : ℕ)
  | delegate (c d : ι)
  | delete (c : ι)
  | free (p : ℕ)

def Op.uses : Op ι → List ι
  | .malloc c _ _ _ | .dealloc c _ | .unlink c _ | .delete c => [c]
  | .delegate c d => [c, d]
  | .write _ _ | .free _ => []

def System.fuel (s : System ι) : ℕ := s.heap.blocks.length + 1

/-- Who answers for a block: a context, or nobody that the library knows of. -/
abbrev Ledger (ι : Type) := Option ι → List Block

/-- Each allocated block is in one place of the ledger, and the chain of a context goes over its blocks. -/
structure Keeps (s : System ι) (L : Ledger ι) : Prop where
  owns : ∀ c, Owns s.heap (s.ctx c).alist (L (some c))
  cells : ∀ b ∈ L none, Cell s.heap b
  nodup : ((L none).map Block.addr).Nodup
  once : ∀ o o' b b', b ∈ L o → b' ∈ L o' → b.addr = b'.addr → o = o'
  whole : ∀ e ∈ s.heap.blocks, ∃ o, ∃ b ∈ L o, b.extent = e

variable {s s' : System ι} {L L' : Ledger ι} {h' : Heap} {b : Block} {c d : ι} {o : Option ι} {l' lost gone : List Block}
  {soap' soapTo : Arena} {live : ι → Bool}

namespace Keeps

theorem cell (hk : Keeps s L) (hb : b ∈ L o) : Cell s.heap b := by
  cases o with
  | none => exact hk.cells b hb
  | some c => exact (hk.owns c).cells b hb

theorem addrs_nodup (hk : Keeps s L) (o : Option ι) : ((L o).map Block.addr).Nodup := by
  cases o with
  | none => exact hk.nodup
  | some c => exact (hk.owns c).nodup

theorem eq_of_addr (hk : Keeps s L) {o' : Option ι} {b' : Block} (hb : b ∈ L o) (hb' : b' ∈ L o')
    (ha : b.addr = b'.addr) : b = b' := by
  obtain rfl := hk.once _ _ _ _ hb hb' ha
  exact List.inj_on_of_nodup_map (hk.addrs_nodup o) hb hb' ha

/-- What a walk of one context does leaves the blocks of the others as they are. -/
theorem apart (hk : Keeps s L) (hf : Frees s.heap h' (L (some c)) gone) (hgone : gone ⊆ L (some c)) (ho : o ≠ some c)
    (hb : b ∈ L o) : b.extent ∈ h'.blocks ∧ ∀ x, b.addr ≤ x → x < b.link + 16 → h'.content x = s.heap.content x := by
  have hne : ∀ d ∈ L (some c), d.addr ≠ b.addr := fun d hd he => ho (hk.once _ _ _ _ hd hb he).symm
  constructor
  · rw [hf.blocks]
    refine ⟨(hk.cell hb).live, ?_⟩
    intro hmem
    obtain ⟨d, hd, hde⟩ := List.mem_map.mp hmem
    exact hne d (hgone hd) (congrArg Extent.addr hde)
  · intro x hx hx'
    apply hf.content
    intro d hd
    have hap := (hk.cell hd).apart (hk.cell hb).live (hne d hd)
    simp only [Extent.Apart, Block.extent, Block.link] at *
    omega

theorem cell_apart (hk : Keeps s L) (hf : Frees s.heap h' (L (some c)) gone) (hgone : gone ⊆ L (some c))
    (ho : o ≠ some c) (hb : b ∈ L o) : Cell h' b := by
  have hbounds := (hk.cell hb).bounds
  obtain ⟨hlive, hsame⟩ := hk.apart hf hgone ho hb
  exact (hk.cell hb).frame (fun x h₁ h₂ => hsame x (by omega) h₂) hlive

theorem owns_apart (hk : Keeps s L) (hf : Frees s.heap h' (L (some c)) gone) (hgone : gone ⊆ L (some c))
    (hd : some d ≠ some c) : Owns h' (s.ctx d).alist (L (some d)) := by
  apply (hk.owns d).frame
  · exact fun b hb => (hk.apart hf hgone hd hb).1
  · intro b hb x h₁ h₂
    have hbounds := (hk.cell hb).bounds
    exact (hk.apart hf hgone hd hb).2 x (by omega) h₂

theorem write (hk : Keeps s L) (hb : b ∈ L o) {a : ℕ} {t : List UInt8} (ha : b.addr ≤ a) (ht : a + t.length ≤ b.link) :
    s.heap.store a t = .ok (s.heap.write a t) ∧ Keeps ⟨s.ctx, s.live, s.heap.write a t⟩ L := by
  have hb' := (hk.cell hb).bounds
  have hsame : ∀ {o b'}, b' ∈ L o → ∀ x, b'.link ≤ x → x < b'.link + 16 →
      (s.heap.write a t).content x = s.heap.content x := by
    intro o b' hb' x h₁ h₂
    apply Content.write_of_not
    by_cases he : b.addr = b'.addr
    · obtain rfl := hk.eq_of_addr hb hb' he
      omega
    · have hap := (hk.cell hb).apart (hk.cell hb').live he
      have hbounds := (hk.cell hb').bounds
      simp only [Extent.Apart, Block.extent, Block.link] at *
      omega
  constructor
  · exact Heap.store_eq ((hk.cell hb).inside ha (by omega))
  · refine ⟨?_, ?_, hk.nodup, hk.once, hk.whole⟩
    · intro c
      exact (hk.owns c).frame (fun b hb => (hk.cell hb).live) fun b hb => hsame hb
    · intro b hb
      exact (hk.cell hb).frame (hsame hb) (hk.cell hb).live

theorem split_nodup (hk : Keeps s L) (hperm : (L (some c)).Perm (l' ++ lost ++ gone)) : (l' ++ lost ++ gone).Nodup :=
  hperm.nodup_iff.mp (List.Nodup.of_map Block.addr (hk.addrs_nodup (some c)))

section Replace

variable [DecidableEq ι] (hk : Keeps s L) (hperm : (L (some c)).Perm (l' ++ lost ++ gone))

include hk hperm

theorem replaced_once (o o' : Option ι) (b b' : Block)
    (hb : b ∈ Function.update (Function.update L none (lost ++ L none)) (some c) l' o)
    (hb' : b' ∈ Function.update (Function.update L none (lost ++ L none)) (some c) l' o') (ha : b.addr = b'.addr) :
    o = o' := by
  have hl : ∀ b ∈ l', b ∈ L (some c) := fun b hb => hperm.mem_iff.mpr (by simp [hb])
  have hlost : ∀ b ∈ lost, b ∈ L (some c) := fun b hb => hperm.mem_iff.mpr (by simp [hb])
  have hdisj : ∀ b ∈ l', b ∉ lost := by
    have hnodup := split_nodup hk hperm
    rw [List.append_assoc] at hnodup
    intro b hb hb'
    exact List.disjoint_of_nodup_append hnodup hb (List.mem_append_left _ hb')
  have hcase : ∀ {o b}, b ∈ Function.update (Function.update L none (lost ++ L none)) (some c) l' o →
      (o = some c ∧ b ∈ l') ∨ (o = none ∧ b ∈ lost) ∨ (o ≠ some c ∧ b ∈ L o) := by
    intro o b hb
    by_cases ho : o = some c
    · subst ho
      rw [Function.update_self] at hb
      exact .inl ⟨rfl, hb⟩
    · rw [Function.update_of_ne ho] at hb
      cases o with
      | none =>
        rw [Function.update_self] at hb
        exact .inr ((List.mem_append.mp hb).imp (fun hb => ⟨rfl, hb⟩) fun hb => ⟨ho, hb⟩)
      | some d =>
        rw [Function.update_of_ne (by simp)] at hb
        exact .inr (.inr ⟨ho, hb⟩)
  rcases hcase hb with ⟨rfl, h₁⟩ | ⟨rfl, h₁⟩ | ⟨ho, h₁⟩
  · rcases hcase hb' with ⟨rfl, h₂⟩ | ⟨rfl, h₂⟩ | ⟨ho', h₂⟩
    · rfl
    · obtain rfl := hk.eq_of_addr (hl b h₁) (hlost b' h₂) ha
      exact absurd h₂ (hdisj b h₁)
    · exact absurd (hk.once _ _ _ _ (hl b h₁) h₂ ha).symm ho'
  · rcases hcase hb' with ⟨rfl, h₂⟩ | ⟨rfl, h₂⟩ | ⟨ho', h₂⟩
    · obtain rfl := hk.eq_of_addr (hlost b h₁) (hl b' h₂) ha
      exact absurd h₁ (hdisj b h₂)
    · rfl
    · exact absurd (hk.once _ _ _ _ (hlost b h₁) h₂ ha).symm ho'
  · rcases hcase hb' with ⟨rfl, h₂⟩ | ⟨rfl, h₂⟩ | ⟨ho', h₂⟩
    · exact absurd (hk.once _ _ _ _ h₁ (hl b' h₂) ha) ho
    · exact absurd (hk.once _ _ _ _ h₁ (hlost b' h₂) ha) ho
    · exact hk.once _ _ _ _ h₁ h₂ ha

theorem replaced_whole (hf : Frees s.heap h' (L (some c)) gone) (e : Extent) (he : e ∈ h'.blocks) :
    ∃ o, ∃ b ∈ Function.update (Function.update L none (lost ++ L none)) (some c) l' o, b.extent = e := by
  obtain ⟨he, hgone⟩ := (hf.blocks e).mp he
  obtain ⟨o, b, hb, rfl⟩ := hk.whole e he
  by_cases ho : o = some c
  · subst ho
    rcases List.mem_append.mp (hperm.mem_iff.mp hb) with hb | hb
    · rcases List.mem_append.mp hb with hb | hb
      · exact ⟨some c, b, by rwa [Function.update_self], rfl⟩
      · refine ⟨none, b, ?_, rfl⟩
        rw [Function.update_of_ne (by simp), Function.update_self]
        exact List.mem_append_left _ hb
    · exact absurd (List.mem_map_of_mem hb) hgone
  · refine ⟨o, b, ?_, rfl⟩
    rw [Function.update_of_ne ho]
    cases o with
    | none =>
      rw [Function.update_self]
      exact List.mem_append_right _ hb
    | some d => rwa [Function.update_of_ne (by simp)]

/-- A walk over the blocks of one context has kept some, left some to nobody and freed the others. -/
theorem replace (ho : Owns h' soap'.alist l') (hlost : ∀ b ∈ lost, Cell h' b)
    (hf : Frees s.heap h' (L (some c)) gone) :
    Keeps ⟨Function.update s.ctx c soap', live, h'⟩
      (Function.update (Function.update L none (lost ++ L none)) (some c) l') := by
  have hgone : gone ⊆ L (some c) := fun b hb => hperm.mem_iff.mpr (List.mem_append_right _ hb)
  refine ⟨?_, ?_, ?_, replaced_once hk hperm, replaced_whole hk hperm hf⟩
  · intro d
    by_cases hd : d = c
    · subst hd
      simp only [Function.update_self]
      exact ho
    · have hne : some d ≠ some c := fun he => hd (Option.some.inj he)
      simp only [Function.update_of_ne hd, Function.update_of_ne hne, ne_eq, reduceCtorEq, not_false_eq_true,
        Function.update_of_ne]
      exact hk.owns_apart hf hgone hne
  · intro b hb
    rw [Function.update_of_ne (by simp), Function.update_self] at hb
    rcases List.mem_append.mp hb with hb | hb
    · exact hlost b hb
    · exact hk.cell_apart hf hgone (by simp) hb
  · rw [Function.update_of_ne (by simp), Function.update_self, List.map_append]
    apply List.Nodup.append _ hk.nodup
    · intro x hx hx'
      obtain ⟨b, hb, rfl⟩ := List.mem_map.mp hx
      obtain ⟨b', hb', ha⟩ := List.mem_map.mp hx'
      have hbc : b ∈ L (some c) := hperm.mem_iff.mpr (by simp [hb])
      have := hk.once _ _ _ _ hb' hbc ha
      cases this
    · have hmap := (hperm.map Block.addr).nodup_iff.mp (hk.addrs_nodup (some c))
      rw [List.map_append, List.map_append] at hmap
      exact hmap.of_append_left.of_append_right

end Replace

/-- One context has taken over the blocks of another one. -/
theorem merge [DecidableEq ι] (hk : Keeps s L) (hcd : c ≠ d) (hsoap : soap'.alist = 0)
    (ho : Owns h' soapTo.alist (L (some c) ++ L (some d))) (hr : Rewrites (L (some c)) s.heap h') :
    Keeps ⟨Function.update (Function.update s.ctx c soap') d soapTo, s.live, h'⟩
      (Function.update (Function.update L (some c) []) (some d) (L (some c) ++ L (some d))) := by
  have hcase : ∀ {o b}, b ∈ Function.update (Function.update L (some c) []) (some d) (L (some c) ++ L (some d)) o →
      (o = some d ∧ b ∈ L (some c)) ∨ (o ≠ some c ∧ b ∈ L o) := by
    intro o b hb
    by_cases hd : o = some d
    · subst hd
      rw [Function.update_self] at hb
      exact (List.mem_append.mp hb).imp (fun hb => ⟨rfl, hb⟩) fun hb => ⟨by simp [hcd.symm], hb⟩
    · rw [Function.update_of_ne hd] at hb
      by_cases hc : o = some c
      · subst hc
        rw [Function.update_self] at hb
        cases hb
      · rw [Function.update_of_ne hc] at hb
        exact .inr ⟨hc, hb⟩
  refine ⟨?_, ?_, ?_, ?_, ?_⟩
  · intro x
    by_cases hxd : x = d
    · subst hxd
      simp only [Function.update_self]
      exact ho
    · have hne : some x ≠ some d := fun he => hxd (Option.some.inj he)
      simp only [Function.update_of_ne hxd, Function.update_of_ne hne]
      by_cases hxc : x = c
      · subst hxc
        simp only [Function.update_self, hsoap]
        exact ⟨rfl, nofun, .nil⟩
      · have hne : some x ≠ some c := fun he => hxc (Option.some.inj he)
        simp only [Function.update_of_ne hxc, Function.update_of_ne hne]
        exact hk.owns_apart hr.frees (List.nil_subset _) hne
  · intro b hb
    obtain ⟨he, _⟩ | ⟨_, hb⟩ := hcase hb
    · cases he
    · exact hk.cell_apart hr.frees (List.nil_subset _) (by simp) hb
  · rw [Function.update_of_ne (by simp), Function.update_of_ne (by simp)]
    exact hk.nodup
  · intro o o' b b' hb hb' ha
    rcases hcase hb with ⟨rfl, h₁⟩ | ⟨ho, h₁⟩
    · rcases hcase hb' with ⟨rfl, h₂⟩ | ⟨ho', h₂⟩
      · rfl
      · exact absurd (hk.once _ _ _ _ h₁ h₂ ha).symm ho'
    · rcases hcase hb' with ⟨rfl, h₂⟩ | ⟨ho', h₂⟩
      · exact absurd (hk.once _ _ _ _ h₁ h₂ ha) ho
      · exact hk.once _ _ _ _ h₁ h₂ ha
  · intro e he
    rw [hr.1] at he
    obtain ⟨o, b, hb, rfl⟩ := hk.whole e he
    by_cases hc : o = some c
    · subst hc
      exact ⟨some d, b, by rw [Function.update_self]; exact List.mem_append_left _ hb, rfl⟩
    · by_cases hd : o = some d
      · subst hd
        exact ⟨some d, b, by rw [Function.update_self]; exact List.mem_append_right _ hb, rfl⟩
      · exact ⟨o, b, by rwa [Function.update_of_ne hd, Function.update_of_ne hc], rfl⟩

theorem grow [DecidableEq ι] (hk : Keeps s L) (ho : Owns h' soap'.alist (b :: L (some c))) (hg : Grows s.heap h' b) :
    Keeps ⟨Function.update s.ctx c soap', s.live, h'⟩ (Function.update L (some c) (b :: L (some c))) := by
  have hcase : ∀ {o b'}, b' ∈ Function.update L (some c) (b :: L (some c)) o → (o = some c ∧ b' = b) ∨ b' ∈ L o := by
    intro o b' hb'
    by_cases hc : o = some c
    · subst hc
      rw [Function.update_self] at hb'
      exact (List.mem_cons.mp hb').imp_left fun he => ⟨rfl, he⟩
    · rw [Function.update_of_ne hc] at hb'
      exact .inr hb'
  refine ⟨?_, ?_, ?_, ?_, ?_⟩
  · intro d
    by_cases hd : d = c
    · subst hd
      simp only [Function.update_self]
      exact ho
    · have hne : some d ≠ some c := fun he => hd (Option.some.inj he)
      simp only [Function.update_of_ne hd, Function.update_of_ne hne]
      exact hg.owns (hk.owns d)
  · intro b' hb'
    rw [Function.update_of_ne (by simp)] at hb'
    exact hg.cell (hk.cells b' hb')
  · rw [Function.update_of_ne (by simp)]
    exact hk.nodup
  · intro o o' b₁ b₂ h₁ h₂ ha
    rcases hcase h₁ with ⟨rfl, rfl⟩ | h₃
    · rcases hcase h₂ with ⟨rfl, _⟩ | h₄
      · rfl
      · exact absurd ha.symm (hg.addr_ne (hk.cell h₄).live)
    · rcases hcase h₂ with ⟨rfl, rfl⟩ | h₄
      · exact absurd ha (hg.addr_ne (hk.cell h₃).live)
      · exact hk.once _ _ _ _ h₃ h₄ ha
  · intro e he
    rw [hg.blocks] at he
    rcases List.mem_cons.mp he with rfl | he
    · exact ⟨some c, b, by rw [Function.update_self]; exact List.mem_cons_self, rfl⟩
    · obtain ⟨o, b', hb', rfl⟩ := hk.whole e he
      by_cases hc : o = some c
      · subst hc
        exact ⟨some c, b', by rw [Function.update_self]; exact List.mem_cons_of_mem _ hb', rfl⟩
      · exact ⟨o, b', by rwa [Function.update_of_ne hc], rfl⟩

theorem free [DecidableEq ι] (hk : Keeps s L) (hb : b ∈ L none) : s.heap.free b.addr = .ok (s.heap.remove b.addr) ∧
    Keeps ⟨s.ctx, s.live, s.heap.remove b.addr⟩
      (Function.update L none ((L none).filter fun b' => b'.addr ≠ b.addr)) := by
  have hmem : ∀ e, e ∈ (s.heap.remove b.addr).blocks ↔ e ∈ s.heap.blocks ∧ e ≠ b.extent :=
    fun e => Heap.mem_remove (hk.cells b hb).live
  have hcase : ∀ {o b'}, b' ∈ Function.update L none ((L none).filter fun b' => b'.addr ≠ b.addr) o →
      b' ∈ L o ∧ b'.addr ≠ b.addr := by
    intro o b' hb'
    cases o with
    | none =>
      rw [Function.update_self] at hb'
      obtain ⟨h₁, h₂⟩ := List.mem_filter.mp hb'
      exact ⟨h₁, of_decide_eq_true h₂⟩
    | some c =>
      rw [Function.update_of_ne (by simp)] at hb'
      refine ⟨hb', fun ha => ?_⟩
      have := hk.once _ _ _ _ hb' hb ha
      cases this
  have hlive : ∀ {o b'}, b' ∈ L o → b'.addr ≠ b.addr → b'.extent ∈ (s.heap.remove b.addr).blocks := by
    intro o b' hb' ha
    exact (hmem _).mpr ⟨(hk.cell hb').live, fun he => ha (congrArg Extent.addr he)⟩
  constructor
  · exact Heap.free_eq (hk.cells b hb).live
  · refine ⟨?_, ?_, ?_, ?_, ?_⟩
    · intro c
      have hL : Function.update L none ((L none).filter fun b' => b'.addr ≠ b.addr) (some c) = L (some c) :=
        Function.update_of_ne (by simp) _ _
      rw [hL]
      apply (hk.owns c).frame
      · exact fun b' hb' => hlive hb' (hcase (by rwa [hL])).2
      · exact fun _ _ _ _ _ => rfl
    · intro b' hb'
      obtain ⟨h₁, h₂⟩ := hcase hb'
      exact (hk.cells b' h₁).frame (fun _ _ _ => rfl) (hlive h₁ h₂)
    · rw [Function.update_self]
      exact List.Nodup.sublist (List.filter_sublist.map _) hk.nodup
    · intro o o' b₁ b₂ h₁ h₂ ha
      exact hk.once _ _ _ _ (hcase h₁).1 (hcase h₂).1 ha
    · intro e he
      obtain ⟨he, hne⟩ := (hmem e).mp he
      obtain ⟨o, b', hb', rfl⟩ := hk.whole e he
      cases o with
      | none =>
        refine ⟨none, b', ?_, rfl⟩
        rw [Function.update_self]
        refine List.mem_filter.mpr ⟨hb', decide_eq_true fun ha => hne ?_⟩
        rw [hk.eq_of_addr hb' hb ha]
      | some c => exact ⟨some c, b', by rwa [Function.update_of_ne (by simp)], rfl⟩

end Keeps

/-- What is left of the blocks when the walk for the block at `p` has ended. -/
def released (m : Content) (p : ℕ) : List Block → List Block
  | [] => []
  | b :: l => if Sound m b then if p = b.addr then l else b :: released m p l else b :: l

theorem released_passed {m : Content} {p : ℕ} {pre : List Block} (h : Passed m p pre) (l : List Block) :
    released m p (pre ++ l) = pre ++ released m p l := by
  induction pre with
  | nil => rfl
  | cons b pre ih =>
    obtain ⟨hs, hp⟩ := h b List.mem_cons_self
    rw [List.cons_append, released, if_pos hs, if_neg hp, ih fun b hb => h b (List.mem_cons_of_mem _ hb)]
    rfl

theorem Released.eq {soap soap' : Arena} {h h' : Heap} {p : ℕ} {l l' : List Block} (hr : Released soap h p l soap' h' l') :
    l' = released h.content p l := by
  cases hr with
  | absent hl =>
    have := released_passed hl []
    rw [List.append_nil] at this
    rw [this, released, List.append_nil]
  | damaged hl hpre hb => rw [hl, released_passed hpre, released, if_neg (by simp [hb])]
  | found hl hpre hb hp => rw [hl, released_passed hpre, released, if_pos hb, if_pos hp]

def Op.Writes (x : ℕ) : Op ι → Prop
  | .write a t => a ≤ x ∧ x < a + t.length
  | _ => False

theorem Keeps.quiet (hk : Keeps s L) {gone : List Block} (hf : Frees s.heap h' (L (some c)) gone) (hb : b ∈ L o)
    {x : ℕ} (hx : b.addr ≤ x) (hx' : x < b.link) : h'.content x = s.heap.content x := by
  apply hf.content
  intro d hd
  by_cases he : d.addr = b.addr
  · obtain rfl := hk.eq_of_addr hd hb he
    exact .inl hx'
  · have hap := (hk.cell hd).apart (hk.cell hb).live he
    simp only [Extent.Apart, Block.extent, Block.link] at *
    omega

theorem Keeps.fuel (hk : Keeps s L) (c : ι) : (L (some c)).length < s.fuel := Nat.lt_succ_of_le (hk.owns c).length_le

/-- A caller writes into its blocks alone, as far as `reach` lets it, and frees none that is in a chain. -/
def Proper (reach : Block → ℕ) (L : Ledger ι) : Op ι → Prop
  | .malloc _ n _ _ => n < 2 ^ 64
  | .write a t => ∃ o, ∃ b ∈ L o, b.addr ≤ a ∧ a + t.length ≤ b.addr + reach b
  | .delegate c d => c ≠ d
  | .free p => ∃ b ∈ L none, b.addr = p
  | _ => True

structure Obeys (reach : Block → ℕ) (s : System ι) (L : Ledger ι) (op : Op ι) : Prop where
  live : ∀ c ∈ op.uses, s.live c
  proper : Proper reach L op

variable [DecidableEq ι]

/-- A call to contexts that are there. -/
def System.call (s : System ι) : Op ι → Outcome (System ι)
  | .malloc c n place fill => do
    let (_, soap, h) ← soapMalloc (s.ctx c) s.heap n place fill
    return ⟨Function.update s.ctx c soap, s.live, h⟩
  | .write a t => do
    let h ← s.heap.store a t
    return ⟨s.ctx, s.live, h⟩
  | .dealloc c p => do
    let (soap, h) ← soapDealloc s.fuel (s.ctx c) s.heap p
    return ⟨Function.update s.ctx c soap, s.live, h⟩
  | .unlink c p => do
    let (_, soap, h) ← soapUnlink s.fuel (s.ctx c) s.heap p
    return ⟨Function.update s.ctx c soap, s.live, h⟩
  | .delegate c d => do
    let (soap, soapTo, h) ← soapDelegateDeletion s.fuel (s.ctx c) (s.ctx d) s.heap
    return ⟨Function.update (Function.update s.ctx d soapTo) c soap, s.live, h⟩
  | .delete c => do
    let (soap, h) ← onvifSoapDeleteBlocks s.fuel (s.ctx c) s.heap
    -- `soap_free`
    return ⟨Function.update s.ctx c soap, Function.update s.live c false, h⟩
  | .free p => do
    let h ← s.heap.free p
    return ⟨s.ctx, s.live, h⟩

def System.step (s : System ι) (op : Op ι) : Outcome (System ι) :=
  if ∀ c ∈ op.uses, s.live c then s.call op else .error .memory

def Ledger.after (s s' : System ι) (L : Ledger ι) : Op ι → Ledger ι
  | .malloc c n _ _ =>
    if s'.heap.blocks.length = s.heap.blocks.length then L
    else Function.update L (some c) (⟨(s'.ctx c).alist - blockSize n, n, blockSize n⟩ :: L (some c))
  | .write _ _ => L
  | .dealloc c p =>
    if p = 0 then Function.update L (some c) ((L (some c)).dropWhile (Sound s.heap.content))
    else Function.update L (some c) (released s.heap.content p (L (some c)))
  | .unlink c p =>
    Function.update (Function.update L none (((L (some c)).filter fun b => p = b.addr) ++ L none)) (some c)
      ((L (some c)).filter fun b => p ≠ b.addr)
  | .delegate c d =>
    if (L (some c)).all (Sound s.heap.content) then
      Function.update (Function.update L (some c) []) (some d) (L (some c) ++ L (some d))
    else L
  | .delete c =>
    Function.update (Function.update L none ((L (some c)).dropWhile (Sound s.heap.content) ++ L none)) (some c) []
  | .free p => Function.update L none ((L none).filter fun b => b.addr ≠ p)

structure Stepped (s : System ι) (L : Ledger ι) (op : Op ι) (s' : System ι) : Prop where
  keeps : Keeps s' (L.after s s' op)
  quiet : ∀ o, ∀ b ∈ L o, ∀ x, b.addr ≤ x → x < b.link → ¬ op.Writes x → s'.heap.content x = s.heap.content x
  given : ∀ o, ∀ b ∈ L.after s s' op o, (∃ o', b ∈ L o') ∨ Sound s'.heap.content b = true

theorem slot_nil : slot [] = none := rfl

theorem call_malloc (hk : Keeps s L) (c : ι) {n : ℕ} (hn : n < 2 ^ 64) (place : ℕ) (fill : Content) :
    ∃ s', s.call (.malloc c n place fill) = .ok s' ∧ Stepped s L (.malloc c n place fill) s' := by
  rcases soapMalloc_spec place fill (hk.owns c) hn with heq | ⟨b, h', hb, heq, ho, hg⟩
  · refine ⟨⟨Function.update s.ctx c { s.ctx c with error := Gsoap.soapEom }, s.live, s.heap⟩, ?_, ?_,
      fun _ _ _ _ _ _ _ => rfl, ?_⟩
    · rw [System.call, heq, ok_bind]
      rfl
    · rw [Ledger.after, if_pos rfl]
      have hperm : (L (some c)).Perm (L (some c) ++ [] ++ []) := by simp
      have ho : Owns s.heap ({ s.ctx c with error := Gsoap.soapEom } : Arena).alist (L (some c)) := hk.owns c
      simpa using hk.replace hperm ho nofun frees_refl
    · intro o b hb
      rw [Ledger.after, if_pos rfl] at hb
      exact .inl ⟨o, hb⟩
  · have hlen : h'.blocks.length ≠ s.heap.blocks.length := by
      rw [hg.blocks, List.length_cons]
      omega
    have haddr : b.link - blockSize n = b.addr := by
      rw [hb]
      simp only [Block.link]
      omega
    have hafter : L.after s ⟨Function.update s.ctx c { s.ctx c with alist := b.link }, s.live, h'⟩
        (.malloc c n place fill) = Function.update L (some c) (b :: L (some c)) := by
      rw [Ledger.after, if_neg hlen]
      simp only [Function.update_self, haddr]
      rw [← hb]
    refine ⟨⟨Function.update s.ctx c { s.ctx c with alist := b.link }, s.live, h'⟩, ?_, ?_, ?_, ?_⟩
    · rw [System.call, heq, ok_bind]
      rfl
    · rw [hafter]
      exact hk.grow ho hg
    · intro o b' hb' x hx hx' _
      exact hg.frame (hk.cell hb').live hx (by omega)
    · intro o b' hb'
      rw [hafter] at hb'
      by_cases hc : o = some c
      · subst hc
        rw [Function.update_self] at hb'
        rcases List.mem_cons.mp hb' with rfl | hb'
        · exact .inr hg.sound
        · exact .inl ⟨_, hb'⟩
      · rw [Function.update_of_ne hc] at hb'
        exact .inl ⟨o, hb'⟩

theorem call_write (hk : Keeps s L) {a : ℕ} {t : List UInt8} (ho : Proper Block.room L (.write a t)) :
    ∃ s', s.call (.write a t) = .ok s' ∧ Stepped s L (.write a t) s' := by
  obtain ⟨o, b, hb, ha, ht⟩ := ho
  obtain ⟨hstore, hk'⟩ := hk.write hb ha ht
  refine ⟨⟨s.ctx, s.live, s.heap.write a t⟩, ?_, hk', ?_, fun o b hb => .inl ⟨o, hb⟩⟩
  · rw [System.call, hstore, ok_bind]
    rfl
  · intro o b hb x hx hx' hw
    exact Content.write_of_not _ hw

theorem call_free (hk : Keeps s L) {p : ℕ} (ho : Proper Block.room L (.free p)) :
    ∃ s', s.call (.free p) = .ok s' ∧ Stepped s L (.free p) s' := by
  obtain ⟨b, hb, rfl⟩ := ho
  obtain ⟨hfree, hk'⟩ := hk.free hb
  refine ⟨⟨s.ctx, s.live, s.heap.remove b.addr⟩, ?_, hk', fun _ _ _ _ _ _ _ => rfl, ?_⟩
  · rw [System.call, hfree, ok_bind]
    rfl
  · intro o b' hb'
    left
    cases o with
    | none =>
      rw [Ledger.after, Function.update_self] at hb'
      exact ⟨none, List.mem_of_mem_filter hb'⟩
    | some c =>
      rw [Ledger.after, Function.update_of_ne (by simp)] at hb'
      exact ⟨some c, hb'⟩

theorem stepped_of_replace {op : Op ι} (hk : Keeps s L) (hperm : (L (some c)).Perm (l' ++ lost ++ gone))
    (ho : Owns h' soap'.alist l') (hlost : ∀ b ∈ lost, Cell h' b) (hf : Frees s.heap h' (L (some c)) gone)
    (hop : L.after s ⟨Function.update s.ctx c soap', live, h'⟩ op =
      Function.update (Function.update L none (lost ++ L none)) (some c) l') :
    Stepped s L op ⟨Function.update s.ctx c soap', live, h'⟩ := by
  refine ⟨?_, ?_, ?_⟩
  · rw [hop]
    exact hk.replace hperm ho hlost hf
  · intro o b hb x hx hx' _
    exact hk.quiet hf hb hx hx'
  · intro o b hb
    left
    rw [hop] at hb
    by_cases hc : o = some c
    · subst hc
      rw [Function.update_self] at hb
      exact ⟨some c, hperm.mem_iff.mpr (by simp [hb])⟩
    · rw [Function.update_of_ne hc] at hb
      by_cases hn : o = none
      · subst hn
        rw [Function.update_self] at hb
        rcases List.mem_append.mp hb with hb | hb
        · exact ⟨some c, hperm.mem_iff.mpr (by simp [hb])⟩
        · exact ⟨none, hb⟩
      · rw [Function.update_of_ne hn] at hb
        exact ⟨o, hb⟩

theorem takeWhile_dropWhile_perm (q : Block → Bool) (l : List Block) :
    l.Perm (l.dropWhile q ++ l.takeWhile q) := by
  have h := List.takeWhile_append_dropWhile (p := q) (l := l)
  exact (List.Perm.of_eq h.symm).trans List.perm_append_comm

theorem call_dealloc (hk : Keeps s L) (c : ι) (p : ℕ) :
    ∃ s', s.call (.dealloc c p) = .ok s' ∧ Stepped s L (.dealloc c p) s' := by
  by_cases hp : p = 0
  · obtain ⟨soap', h', heq, ho, hf, -, -⟩ := deallocAll_spec (hk.owns c) (hk.fuel c)
    refine ⟨⟨Function.update s.ctx c soap', s.live, h'⟩, ?_, ?_⟩
    · rw [System.call, soapDealloc, if_neg (not_not.mpr hp), heq, ok_bind]
      rfl
    · have hf' : Frees s.heap h' (L (some c)) ((L (some c)).takeWhile (Sound s.heap.content)) :=
        ⟨hf.blocks, fun x _ => hf.content x nofun⟩
      have hperm : (L (some c)).Perm ((L (some c)).dropWhile (Sound s.heap.content) ++ [] ++
          (L (some c)).takeWhile (Sound s.heap.content)) := by
        rw [List.append_nil]
        exact takeWhile_dropWhile_perm _ _
      apply stepped_of_replace hk hperm ho nofun hf'
      rw [Ledger.after, if_pos hp]
      simp
  · have ho : Owns s.heap (s.ctx c).alist ([] ++ L (some c)) := hk.owns c
    obtain ⟨soap', h', l', heq, hr⟩ := deallocOne_spec (p := p) ho nofun (hk.fuel c)
    refine ⟨⟨Function.update s.ctx c soap', s.live, h'⟩, ?_, ?_⟩
    · have heq' : soapDealloc s.fuel (s.ctx c) s.heap p = .ok (soap', h') := by
        rw [soapDealloc, if_pos hp]
        exact heq
      rw [System.call, heq', ok_bind]
      rfl
    · have hl' := hr.eq
      have hafter : L.after s ⟨Function.update s.ctx c soap', s.live, h'⟩ (.dealloc c p) =
          Function.update (Function.update L none ([] ++ L none)) (some c) l' := by
        rw [Ledger.after, if_neg hp, hl']
        simp
      rw [List.nil_append] at hr
      obtain ⟨hl, gone, hperm, hf⟩ := hr.owns (hk.owns c)
      exact stepped_of_replace hk hperm hl nofun hf hafter

theorem call_unlink (hk : Keeps s L) (c : ι) (p : ℕ) :
    ∃ s', s.call (.unlink c p) = .ok s' ∧ Stepped s L (.unlink c p) s' := by
  obtain ⟨x, soap', h', heq, ho, hcell, hf⟩ : ∃ x soap' h', soapUnlink s.fuel (s.ctx c) s.heap p = .ok (x, soap', h') ∧
      Owns h' soap'.alist ((L (some c)).filter fun b => p ≠ b.addr) ∧ (∀ b ∈ L (some c), p = b.addr → Cell h' b) ∧
        Frees s.heap h' (L (some c)) [] := by
    by_cases hp : p = 0
    · have hne : ∀ b ∈ L (some c), p ≠ b.addr := fun b hb he => (hk.cell hb).bounds.1.ne (hp ▸ he)
      exact ⟨false, s.ctx c, s.heap, if_neg (not_not.mpr hp), Unlinked.owns (hk.owns c) (.absent hne)⟩
    · have ho : Owns s.heap (s.ctx c).alist ([] ++ L (some c)) := hk.owns c
      obtain ⟨x, soap', h', l', heq, hr⟩ := unlinkLoop_spec (p := p) ho nofun (hk.fuel c)
      exact ⟨x, soap', h', (if_pos hp).trans heq, hr.owns (hk.owns c)⟩
  refine ⟨⟨Function.update s.ctx c soap', s.live, h'⟩, ?_, ?_⟩
  · rw [System.call, heq, ok_bind]
    rfl
  · have hperm : (L (some c)).Perm (((L (some c)).filter fun b => p ≠ b.addr) ++
        ((L (some c)).filter fun b => p = b.addr) ++ []) := by
      have h := List.filter_append_perm (fun b : Block => decide (p ≠ b.addr)) (L (some c))
      simpa using h.symm
    apply stepped_of_replace hk hperm ho _ hf rfl
    intro b hb
    obtain ⟨hb, hp⟩ := List.mem_filter.mp hb
    exact hcell b hb (of_decide_eq_true hp)

theorem call_delete (hk : Keeps s L) (c : ι) :
    ∃ s', s.call (.delete c) = .ok s' ∧ Stepped s L (.delete c) s' ∧
      Frees s.heap s'.heap [] ((L (some c)).takeWhile (Sound s.heap.content)) := by
  have ho : Owns s.heap (soapDelete (s.ctx c)).alist (L (some c)) := hk.owns c
  obtain ⟨soap', h', heq, ho', hf, -, -⟩ := deallocAll_spec ho (hk.fuel c)
  refine ⟨⟨Function.update s.ctx c { soap' with alist := 0 }, Function.update s.live c false, h'⟩, ?_, ?_, hf⟩
  · have heq' : onvifSoapDeleteBlocks s.fuel (s.ctx c) s.heap = .ok ({ soap' with alist := 0 }, h') := by
      rw [onvifSoapDeleteBlocks, soapDealloc, if_neg (by simp), heq]
      rfl
    rw [System.call, heq', ok_bind]
    rfl
  · have hf' : Frees s.heap h' (L (some c)) ((L (some c)).takeWhile (Sound s.heap.content)) :=
      ⟨hf.blocks, fun x _ => hf.content x nofun⟩
    have hnil : Owns h' ({ soap' with alist := 0 } : Arena).alist [] := ⟨rfl, nofun, .nil⟩
    exact stepped_of_replace hk (takeWhile_dropWhile_perm _ _) hnil ho'.cells hf' rfl

theorem call_delegate (hk : Keeps s L) {c d : ι} (hcd : c ≠ d) :
    ∃ s', s.call (.delegate c d) = .ok s' ∧ Stepped s L (.delegate c d) s' := by
  have ho : Owns s.heap (s.ctx c).alist ([] ++ L (some c)) := hk.owns c
  obtain ⟨hsound, hdamaged⟩ := lastSlot_spec ho (hk.fuel c)
  cases hall : (L (some c)).all (Sound s.heap.content) with
  | true =>
    have ho' : Owns s.heap (s.ctx c).alist (L (some c) ++ []) := by
      rw [List.append_nil]
      exact hk.owns c
    have hnodup : ((L (some c) ++ L (some d)).map Block.addr).Nodup := by
      rw [List.map_append]
      apply List.Nodup.append (hk.owns c).nodup (hk.owns d).nodup
      intro x hx hx'
      obtain ⟨b, hb, rfl⟩ := List.mem_map.mp hx
      obtain ⟨b', hb', ha⟩ := List.mem_map.mp hx'
      exact hcd (Option.some.inj (hk.once _ _ _ _ hb hb' ha.symm))
    obtain ⟨soap', h', hw, -, hown, hr⟩ := writeSlot_spec ho' (hk.owns d) hnodup
    obtain ⟨soapTo, hto⟩ : ∃ soapTo : Arena, soapTo = { s.ctx d with alist := soap'.alist } := ⟨_, rfl⟩
    have hown' : Owns h' soapTo.alist (L (some c) ++ L (some d)) := by rw [hto]; exact hown
    refine ⟨⟨Function.update (Function.update s.ctx c { soap' with alist := 0 }) d soapTo, s.live, h'⟩, ?_, ?_, ?_, ?_⟩
    · have hlast := hsound hall
      rw [List.nil_append] at hlast
      have heq : soapDelegateDeletion s.fuel (s.ctx c) (s.ctx d) s.heap = .ok ({ soap' with alist := 0 }, soapTo, h') := by
        rw [soapDelegateDeletion, ← slot_nil, hlast, ok_bind]
        dsimp only
        rw [hw, ok_bind, hto]
        rfl
      rw [System.call, heq, ok_bind, Function.update_comm hcd]
      rfl
    · rw [Ledger.after, if_pos hall]
      exact hk.merge hcd rfl hown' hr
    · intro o b hb x hx hx' _
      exact hk.quiet hr.frees hb hx hx'
    · intro o b hb
      left
      rw [Ledger.after, if_pos hall] at hb
      by_cases hd : o = some d
      · subst hd
        rw [Function.update_self] at hb
        exact (List.mem_append.mp hb).elim (fun hb => ⟨_, hb⟩) fun hb => ⟨_, hb⟩
      · rw [Function.update_of_ne hd] at hb
        by_cases hc : o = some c
        · subst hc
          rw [Function.update_self] at hb
          cases hb
        · rw [Function.update_of_ne hc] at hb
          exact ⟨o, hb⟩
  | false =>
    refine ⟨⟨Function.update (Function.update s.ctx c { s.ctx c with error := soapMoe }) d (s.ctx d), s.live, s.heap⟩,
      ?_, ?_, fun _ _ _ _ _ _ _ => rfl, ?_⟩
    · have heq : soapDelegateDeletion s.fuel (s.ctx c) (s.ctx d) s.heap =
          .ok ({ s.ctx c with error := soapMoe }, s.ctx d, s.heap) := by
        rw [soapDelegateDeletion, ← slot_nil, hdamaged hall, ok_bind]
        rfl
      rw [System.call, heq, ok_bind, Function.update_comm hcd]
      rfl
    · rw [Ledger.after, if_neg (by simp [hall])]
      refine ⟨?_, hk.cells, hk.nodup, hk.once, hk.whole⟩
      intro x
      by_cases hxd : x = d
      · subst hxd
        simp only [Function.update_self]
        exact hk.owns x
      · simp only [Function.update_of_ne hxd]
        by_cases hxc : x = c
        · subst hxc
          simp only [Function.update_self]
          exact hk.owns x
        · simp only [Function.update_of_ne hxc]
          exact hk.owns x
    · intro o b hb
      rw [Ledger.after, if_neg (by simp [hall])] at hb
      exact .inl ⟨o, hb⟩

theorem call_spec (hk : Keeps s L) {op : Op ι} (ho : Proper Block.room L op) :
    ∃ s', s.call op = .ok s' ∧ Stepped s L op s' := by
  cases op with
  | malloc c n place fill => exact call_malloc hk c ho place fill
  | write a t => exact call_write hk ho
  | dealloc c p => exact call_dealloc hk c p
  | unlink c p => exact call_unlink hk c p
  | delegate c d => exact call_delegate hk ho
  | delete c =>
    obtain ⟨s', hs, hstep, -⟩ := call_delete hk c
    exact ⟨s', hs, hstep⟩
  | free p => exact call_free hk ho

theorem step_spec (hk : Keeps s L) {op : Op ι} (ho : Obeys Block.room s L op) :
    ∃ s', s.step op = .ok s' ∧ Stepped s L op s' := by
  rw [System.step, if_pos ho.live]
  exact call_spec hk ho.proper

theorem step_delete (hk : Keeps s L) {c : ι} (hc : s.live c) :
    ∃ s', s.step (.delete c) = .ok s' ∧ Stepped s L (.delete c) s' ∧
      Frees s.heap s'.heap [] ((L (some c)).takeWhile (Sound s.heap.content)) := by
  have hlive : ∀ d ∈ (Op.delete c).uses, s.live d := fun d hd => List.mem_singleton.mp hd ▸ hc
  rw [System.step, if_pos hlive]
  exact call_delete hk c

end OnvifSdk.ContextMemory
