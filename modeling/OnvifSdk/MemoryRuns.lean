import OnvifSdk.SharedHeap

namespace OnvifSdk.ContextMemory

open Lib Memory Gsoap.Alloc

variable {ι : Type} [DecidableEq ι] {s s' : System ι} {L : Ledger ι}

def System.start (m : Content) : System ι := ⟨fun _ => {}, fun _ => true, .empty m⟩

/-- The systems that callers reach who write no further than `reach`. -/
inductive Reaches (reach : Block → ℕ) : System ι → Ledger ι → Prop
  | start (m : Content) : Reaches reach (.start m) fun _ => []
  | step {s s' : System ι} {L : Ledger ι} {op : Op ι} (h : Reaches reach s L) (ho : Obeys reach s L op)
      (hs : s.step op = .ok s') : Reaches reach s' (L.after s s' op)

omit [DecidableEq ι] in
theorem keeps_start (m : Content) : Keeps (.start m : System ι) fun _ => [] where
  owns := fun _ => ⟨rfl, nofun, .nil⟩
  cells := nofun
  nodup := .nil
  once := fun _ _ _ _ hb => absurd hb List.not_mem_nil
  whole := fun _ he => absurd he List.not_mem_nil

theorem Keeps.stepped {op : Op ι} (hk : Keeps s L) (ho : Obeys Block.room s L op) (hs : s.step op = .ok s') :
    Stepped s L op s' := by
  obtain ⟨s'', hs', hstep⟩ := step_spec hk ho
  obtain rfl := Except.ok.inj (hs'.symm.trans hs)
  exact hstep

theorem Reaches.keeps (h : Reaches Block.room s L) : Keeps s L := by
  induction h with
  | start m => exact keeps_start m
  | step _ ho hs ih => exact (ih.stepped ho hs).keeps

omit [DecidableEq ι] in
theorem Keeps.obeys {op : Op ι} (hk : Keeps s L) (ho : Obeys Block.asked s L op) : Obeys Block.room s L op := by
  refine ⟨ho.live, ?_⟩
  cases op with
  | write a t =>
    obtain ⟨o, b, hb, ha, ht⟩ := ho.proper
    have hfits := (hk.cell hb).fits
    exact ⟨o, b, hb, ha, by omega⟩
  | malloc | dealloc | unlink | delegate | delete | free => exact ho.proper

theorem Keeps.sound {op : Op ι} (hk : Keeps s L) (ho : Proper Block.asked L op) (hstep : Stepped s L op s')
    (hs : ∀ o, ∀ b ∈ L o, Sound s.heap.content b) : ∀ o, ∀ b ∈ L.after s s' op o, Sound s'.heap.content b := by
  intro o b hb
  rcases hstep.given o b hb with ⟨o', hb'⟩ | hsound
  · have hbounds := (hk.cell hb').bounds
    have hold := sound_iff.mp (hs o' b hb')
    rw [sound_iff, ← hold, half, half, Content.read_congr]
    intro x h₁ h₂
    apply hstep.quiet o' b hb' x (by omega) (by omega)
    -- the two bytes in front of a link are not among those that were asked for
    cases op with
    | write a t =>
      obtain ⟨o₁, b₁, hb₁, ha, ht⟩ := ho
      rintro ⟨hx, hx'⟩
      by_cases he : b₁.addr = b.addr
      · obtain rfl := hk.eq_of_addr hb₁ hb' he
        omega
      · have hap := (hk.cell hb₁).apart (hk.cell hb').live he
        have hbounds₁ := (hk.cell hb₁).bounds
        simp only [Extent.Apart, Block.extent] at hap
        omega
    | malloc | dealloc | unlink | delegate | delete | free => exact id
  · exact hsound

theorem Reaches.careful (h : Reaches Block.asked s L) :
    Reaches Block.room s L ∧ ∀ o, ∀ b ∈ L o, Sound s.heap.content b := by
  induction h with
  | start m => exact ⟨.start m, fun _ _ hb => absurd hb List.not_mem_nil⟩
  | step _ ho hs ih =>
    have hk := ih.1.keeps
    exact ⟨.step ih.1 (hk.obeys ho) hs, hk.sound ho.proper (hk.stepped (hk.obeys ho) hs) ih.2⟩

/-- As long as no caller writes over a link, frees what is in a chain, hands a context's blocks over to
itself or goes on with a context that is deleted, no call crashes, each block is freed at most once, each
has one owner, and what a block holds changes by writes into it alone. -/
theorem calls_keep {op : Op ι} (h : Reaches Block.room s L) (ho : Obeys Block.room s L op) :
    ∃ s', s.step op = .ok s' ∧ Keeps s' (L.after s s' op) ∧ ∀ o, ∀ b ∈ L o, ∀ x, b.addr ≤ x → x < b.link →
      ¬ op.Writes x → s'.heap.content x = s.heap.content x := by
  obtain ⟨s', hs, hstep⟩ := step_spec h.keeps ho
  exact ⟨s', hs, hstep.keeps, hstep.quiet⟩

section Play

variable [Fintype ι]

instance (reach : Block → ℕ) (L : Ledger ι) (op : Op ι) : Decidable (Proper reach L op) :=
  match op with
  | .malloc _ n _ _ => inferInstanceAs (Decidable (n < 2 ^ 64))
  | .write a t => inferInstanceAs (Decidable (∃ o, ∃ b ∈ L o, b.addr ≤ a ∧ a + t.length ≤ b.addr + reach b))
  | .delegate c d => inferInstanceAs (Decidable (c ≠ d))
  | .free p => inferInstanceAs (Decidable (∃ b ∈ L none, b.addr = p))
  | .dealloc _ _ | .unlink _ _ | .delete _ => inferInstanceAs (Decidable True)

instance (reach : Block → ℕ) (s : System ι) (L : Ledger ι) (op : Op ι) : Decidable (Obeys reach s L op) :=
  decidable_of_iff ((∀ c ∈ op.uses, s.live c) ∧ Proper reach L op) ⟨fun h => ⟨h.1, h.2⟩, fun h => ⟨h.live, h.proper⟩⟩

/-- The calls one after the other, as long as each is a proper one. -/
def System.play (reach : Block → ℕ) (s : System ι) (L : Ledger ι) : List (Op ι) → Option (System ι × Ledger ι)
  | [] => some (s, L)
  | op :: ops =>
    if Obeys reach s L op then
      match s.step op with
      | .ok s' => System.play reach s' (L.after s s' op) ops
      | .error _ => none
    else none

theorem Reaches.play {reach : Block → ℕ} {ops : List (Op ι)} (h : Reaches reach s L) {s' : System ι} {L' : Ledger ι}
    (hplay : s.play reach L ops = some (s', L')) : Reaches reach s' L' := by
  induction ops generalizing s L with
  | nil =>
    cases hplay
    exact h
  | cons op ops ih =>
    simp only [System.play] at hplay
    split_ifs at hplay with ho
    split at hplay
    · rename_i s₁ hs
      exact ih (.step h ho hs) hplay
    · cases hplay

end Play

-- Three bytes for one context and five for the other one. The three are written.
def lending : List (Op Bool) :=
  [.malloc true 3 4096 fun _ => 0, .malloc false 5 8192 fun _ => 0, .write 4096 [1, 2, 3]]

def handover : Op Bool := .delegate true false

-- The canary of the five bytes is hit, and their link is not.
def overrun : Op Bool := .write 8198 [0, 0]

def three : Block := ⟨4096, 3, 8⟩

def five : Block := ⟨8192, 5, 8⟩

def played (reach : Block → ℕ) (ops : List (Op Bool)) : Option (System Bool × Ledger Bool) :=
  (System.start fun _ => 0).play reach (fun _ => []) ops

theorem played_reaches {reach : Block → ℕ} {ops : List (Op Bool)} {s : System Bool} {L : Ledger Bool}
    (h : played reach ops = some (s, L)) : Reaches reach s L := (Reaches.start _).play h

theorem lending_played : (played Block.room lending).map (fun x => decide (Obeys Block.room x.1 x.2 handover)) =
    some true := by decide +kernel

theorem calls_keep_handover : ∃ s L s', played Block.room lending = some (s, L) ∧ s.step handover = .ok s' ∧
    Keeps s' (L.after s s' handover) ∧ ∀ o, ∀ b ∈ L o, ∀ x, b.addr ≤ x → x < b.link → ¬ handover.Writes x →
      s'.heap.content x = s.heap.content x := by
  obtain ⟨⟨s, L⟩, hplay, hobeys⟩ := Option.map_eq_some_iff.mp lending_played
  obtain ⟨s', hcalls⟩ := calls_keep (played_reaches hplay) (of_decide_eq_true hobeys)
  exact ⟨s, L, s', hplay, hcalls⟩

theorem mem_takeWhile_of_all {q : Block → Bool} {l : List Block} :
    (∀ b ∈ l, b ∈ l.takeWhile q) ↔ ∀ b ∈ l, q b := by
  constructor
  · exact fun h b hb => List.mem_takeWhile_imp (h b hb)
  · intro h b hb
    rwa [List.takeWhile_eq_self_iff.mpr h]

/-- Deleting a context frees the blocks that its chain has in front of the first damaged one, and no others. -/
theorem delete_frees (h : Reaches Block.room s L) {c : ι} (hc : s.live c) : ∃ s', s.step (.delete c) = .ok s' ∧
    (∀ e, e ∈ s'.heap.blocks ↔
      e ∈ s.heap.blocks ∧ e ∉ ((L (some c)).takeWhile (Sound s.heap.content)).map Block.extent) ∧
    ((∀ b ∈ L (some c), b.extent ∉ s'.heap.blocks) ↔ ∀ b ∈ L (some c), Sound s.heap.content b) := by
  have hk := h.keeps
  obtain ⟨s', hs, -, hf⟩ := step_delete hk hc
  refine ⟨s', hs, hf.blocks, ?_⟩
  rw [← mem_takeWhile_of_all]
  apply forall₂_congr
  intro b hb
  rw [hf.blocks, not_and_not_right]
  constructor
  · intro hfreed
    obtain ⟨b', hb', he⟩ := List.mem_map.mp (hfreed (hk.cell hb).live)
    have hmem : b' ∈ L (some c) := (List.takeWhile_prefix _).subset hb'
    rwa [← hk.eq_of_addr hmem hb (congrArg Extent.addr he)]
  · exact fun hb' _ => List.mem_map_of_mem hb'

theorem overrun_played : (played Block.room (lending ++ [handover, overrun])).map (fun x =>
    (x.1.live false, x.2 (some false), x.1.heap.blocks, Sound x.1.heap.content three, Sound x.1.heap.content five)) =
      some (true, [three, five], [five.extent, three.extent], true, false) := by decide +kernel

theorem delete_frees_after_overrun : ∃ s L s', played Block.room (lending ++ [handover, overrun]) = some (s, L) ∧
    s.step (.delete false) = .ok s' ∧
    (∀ e, e ∈ s'.heap.blocks ↔
      e ∈ s.heap.blocks ∧ e ∉ ((L (some false)).takeWhile (Sound s.heap.content)).map Block.extent) ∧
    ((∀ b ∈ L (some false), b.extent ∉ s'.heap.blocks) ↔ ∀ b ∈ L (some false), Sound s.heap.content b) ∧
    three.extent ∉ s'.heap.blocks ∧ five.extent ∈ s'.heap.blocks := by
  obtain ⟨⟨s, L⟩, hplay, hstate⟩ := Option.map_eq_some_iff.mp overrun_played
  simp only [Prod.mk.injEq] at hstate
  obtain ⟨hlive, hchain, hblocks, hthree, hfive⟩ := hstate
  obtain ⟨s', hs, hfreed, hall⟩ := delete_frees (played_reaches hplay) hlive
  have hfront : (L (some false)).takeWhile (Sound s.heap.content) = [three] := by
    simp [hchain, hthree, hfive]
  refine ⟨s, L, s', hplay, hs, hfreed, hall, ?_, ?_⟩
  · rw [hfreed, hfront]
    simp
  · rw [hfreed, hfront, hblocks]
    decide

/-- Where no caller writes past what it asked for, deleting a context frees all of its blocks and leaves
none to nobody, and with the last context the heap is empty. -/
theorem careful_frees (h : Reaches Block.asked s L) {c : ι} (hc : s.live c) : ∃ s', s.step (.delete c) = .ok s' ∧
    (∀ e, e ∈ s'.heap.blocks ↔ e ∈ s.heap.blocks ∧ e ∉ (L (some c)).map Block.extent) ∧
    L.after s s' (.delete c) none = L none ∧ ((∀ o, o ≠ some c → L o = []) → s'.heap.blocks = []) := by
  obtain ⟨hroom, hsound⟩ := h.careful
  obtain ⟨s', hs, hstep, hf⟩ := step_delete hroom.keeps hc
  have hall : (L (some c)).takeWhile (Sound s.heap.content) = L (some c) :=
    List.takeWhile_eq_self_iff.mpr (hsound (some c))
  have hnone : (L (some c)).dropWhile (Sound s.heap.content) = [] := List.dropWhile_eq_nil_iff.mpr (hsound (some c))
  refine ⟨s', hs, ?_, ?_, ?_⟩
  · intro e
    rw [hf.blocks, hall]
  · rw [Ledger.after, Function.update_of_ne (by simp), Function.update_self, hnone, List.nil_append]
  · intro hlast
    apply List.eq_nil_iff_forall_not_mem.mpr
    intro e he
    obtain ⟨he, hgone⟩ := (hf.blocks e).mp he
    obtain ⟨o, b, hb, rfl⟩ := hroom.keeps.whole e he
    by_cases ho : o = some c
    · subst ho
      rw [hall] at hgone
      exact hgone (List.mem_map_of_mem hb)
    · rw [hlast o ho] at hb
      cases hb

theorem handover_played : (played Block.asked (lending ++ [handover])).map (fun x =>
    (x.1.live false, x.2 (some true), x.2 none, x.1.heap.blocks)) =
      some (true, [], [], [five.extent, three.extent]) := by decide +kernel

theorem careful_frees_after_handover : ∃ s L s', played Block.asked (lending ++ [handover]) = some (s, L) ∧
    s.heap.blocks = [five.extent, three.extent] ∧ s.step (.delete false) = .ok s' ∧
    (∀ e, e ∈ s'.heap.blocks ↔ e ∈ s.heap.blocks ∧ e ∉ (L (some false)).map Block.extent) ∧
    L.after s s' (.delete false) none = L none ∧ s'.heap.blocks = [] := by
  obtain ⟨⟨s, L⟩, hplay, hstate⟩ := Option.map_eq_some_iff.mp handover_played
  simp only [Prod.mk.injEq] at hstate
  obtain ⟨hlive, htrue, hnone, hblocks⟩ := hstate
  obtain ⟨s', hs, hfreed, hafter, hlast⟩ := careful_frees (played_reaches hplay) hlive
  refine ⟨s, L, s', hplay, hblocks, hs, hfreed, hafter, hlast ?_⟩
  rintro (_ | _ | _) ho
  · exact hnone
  · exact absurd rfl ho
  · exact htrue

end OnvifSdk.ContextMemory
