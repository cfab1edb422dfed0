import OnvifSdk.Gsoap.Alloc

namespace OnvifSdk.ContextMemory

open Lib Memory Gsoap.Alloc

/-- A block that `soap_malloc` gave out: the bytes that were asked for, and the room in front of its link. -/
structure Block where
  addr : ℕ
  asked : ℕ
  room : ℕ
  deriving DecidableEq

def Block.link (b : Block) : ℕ := b.addr + b.room

def Block.extent (b : Block) : Extent := ⟨b.addr, b.room + 16⟩

def Sound (m : Content) (b : Block) : Bool := half m (b.link - 2) = soapCanary

structure Cell (h : Heap) (b : Block) : Prop where
  sized : word h.content (b.link + 8) = b.room
  live : b.extent ∈ h.blocks
  fits : b.asked + 2 ≤ b.room

variable {h h' : Heap} {b c : Block}

namespace Cell

theorem bounds (hb : Cell h b) :
    0 < b.addr ∧ b.addr + b.room = b.link ∧ b.link + 16 < 2 ^ 64 ∧ b.asked + 2 ≤ b.room := by
  have hm := h.mapped _ hb.live
  have hfits := hm.fits
  simp only [Block.extent] at hfits
  exact ⟨hm.addr, rfl, by rw [Block.link]; omega, hb.fits⟩

theorem inside (hb : Cell h b) {x n : ℕ} (hx : b.addr ≤ x) (hn : x + n ≤ b.link + 16) : h.Inside x n := by
  apply Heap.inside_of_mem hb.live
  simp only [Extent.Holds, Block.extent, Block.link] at *
  omega

theorem apart (hb : Cell h b) {e : Extent} (he : e ∈ h.blocks) (hne : b.addr ≠ e.addr) : b.extent.Apart e := by
  apply Heap.apart_of_mem hb.live he
  intro heq
  exact hne (congrArg Extent.addr heq)

theorem frame (hb : Cell h b) (hc : ∀ x, b.link ≤ x → x < b.link + 16 → h'.content x = h.content x)
    (hl : b.extent ∈ h'.blocks) : Cell h' b where
  sized := by
    rw [← hb.sized, word, word, Content.read_congr]
    intro y h₁ h₂
    exact hc y (by omega) (by omega)
  live := hl
  fits := hb.fits

theorem canary (hb : Cell h b) : h.loadHalf (below b.link 2) = .ok (half h.content (b.link - 2)) := by
  obtain ⟨hpos, hlink, hfit, hroom⟩ := hb.bounds
  have h2 : below b.link 2 = b.link - 2 := by rw [below]; omega
  rw [h2]
  exact Heap.loadHalf_eq (hb.inside (by omega) (by omega))

theorem size (hb : Cell h b) : h.loadWord (b.link + 8) = .ok b.room := by
  obtain ⟨hpos, hlink, hfit, hroom⟩ := hb.bounds
  rw [Heap.loadWord_eq (hb.inside (by omega) (by omega)), hb.sized]

theorem next (hb : Cell h b) : h.loadWord b.link = .ok (word h.content b.link) := by
  obtain ⟨hpos, hlink, hfit, hroom⟩ := hb.bounds
  exact Heap.loadWord_eq (hb.inside (by omega) (by omega))

theorem addr (hb : Cell h b) : below b.link b.room = b.addr := by
  obtain ⟨hpos, hlink, hfit, hroom⟩ := hb.bounds
  rw [below]
  omega

theorem link_ne (hb : Cell h b) : b.link ≠ 0 := by
  obtain ⟨hpos, hlink, hfit, hroom⟩ := hb.bounds
  omega

end Cell

/-- The chain at `alist` goes over these blocks, all of them allocated. -/
structure Owns (h : Heap) (alist : ℕ) (l : List Block) : Prop where
  chain : Chain (word h.content) alist (l.map Block.link)
  cells : ∀ b ∈ l, Cell h b
  nodup : (l.map Block.addr).Nodup

variable {a p v : ℕ} {l k pre post rest : List Block} {soap soap' : Arena}

theorem Owns.frame (ho : Owns h a l) (hl : ∀ b ∈ l, b.extent ∈ h'.blocks)
    (hc : ∀ b ∈ l, ∀ x, b.link ≤ x → x < b.link + 16 → h'.content x = h.content x) : Owns h' a l where
  chain := by
    apply ho.chain.congr
    intro x hx
    obtain ⟨b, hb, rfl⟩ := List.mem_map.mp hx
    rw [word, word, Content.read_congr]
    intro y h₁ h₂
    exact hc b hb y h₁ (by omega)
  cells := fun b hb => (ho.cells b hb).frame (hc b hb) (hl b hb)
  nodup := ho.nodup

theorem Owns.suffix (ho : Owns h a (pre ++ b :: post)) : Owns h (word h.content b.link) post where
  chain := by
    have hch := ho.chain
    rw [List.map_append, List.map_cons] at hch
    exact hch.tail.2.2
  cells := fun c hc => ho.cells c (by simp [hc])
  nodup := by
    apply List.Nodup.sublist _ ho.nodup
    apply List.Sublist.map
    exact (List.sublist_cons_self b post).trans (List.sublist_append_right pre _)

def head : List Block → ℕ
  | [] => 0
  | b :: _ => b.link

theorem Owns.head (ho : Owns h a l) : a = head l := by
  cases l with
  | nil => exact ho.chain
  | cons b l => exact ho.chain.1

theorem Owns.head_lt (ho : Owns h a l) : a < 2 ^ 64 := by
  rw [ho.head]
  cases l with
  | nil => exact Nat.pow_pos (by decide)
  | cons b l =>
    have := (ho.cells b List.mem_cons_self).bounds
    simp only [ContextMemory.head]
    omega

/-- The place of the pointer behind these blocks. -/
def slot (pre : List Block) : Option ℕ := pre.getLast?.map Block.link

theorem slot_concat (pre : List Block) (b : Block) : slot (pre ++ [b]) = some b.link := by
  rw [slot, List.getLast?_concat, Option.map_some]

theorem readSlot_eq (ho : Owns h soap.alist (pre ++ rest)) : readSlot soap h (slot pre) = .ok (head rest) := by
  rcases List.eq_nil_or_concat pre with rfl | ⟨pre, c, rfl⟩
  · exact congrArg _ ho.head
  · simp only [List.concat_eq_append, List.append_assoc, List.singleton_append] at ho ⊢
    rw [slot_concat, readSlot, (ho.cells c (by simp)).next, ho.suffix.head]

/-- Only the links of these blocks are written. -/
def Rewrites (l : List Block) (h h' : Heap) : Prop :=
  h'.blocks = h.blocks ∧ ∀ x, (∀ b ∈ l, x < b.link ∨ b.link + 8 ≤ x) → h'.content x = h.content x

theorem rewrites_link {v : ℕ} (hb : b ∈ l) : Rewrites l h (h.write b.link (littleEndian 8 v)) := by
  refine ⟨rfl, ?_⟩
  intro x hx
  have := hx b hb
  apply Content.write_of_not
  rw [littleEndian_length]
  omega

theorem Cell.rewrites (hb : Cell h b) (hl : ∀ c ∈ l, Cell h c) (hr : Rewrites l h h')
    (hne : ∀ c ∈ l, c.addr ≠ b.addr) {x : ℕ} (hx : b.addr ≤ x) (hx' : x < b.link + 16) : h'.content x = h.content x := by
  apply hr.2
  intro c hc
  have hap := (hl c hc).apart hb.live (hne c hc)
  simp only [Extent.Apart, Block.extent, Block.link] at *
  omega

theorem writeSlot_spec (ho : Owns h soap.alist (pre ++ rest)) (hk : Owns h v k)
    (hd : ((pre ++ k).map Block.addr).Nodup) : ∃ soap' h', writeSlot soap h (slot pre) v = .ok (soap', h') ∧
      soap' = { soap with alist := soap'.alist } ∧ Owns h' soap'.alist (pre ++ k) ∧ Rewrites pre h h' := by
  rcases List.eq_nil_or_concat pre with rfl | ⟨pre, c, rfl⟩
  · exact ⟨_, h, rfl, rfl, hk, rfl, fun _ _ => rfl⟩
  · simp only [List.concat_eq_append, List.append_assoc, List.singleton_append] at ho hd ⊢
    have hc := ho.cells c (by simp)
    obtain ⟨hpos, hlink, hfit, hroom⟩ := hc.bounds
    have hin : h.Inside c.link (littleEndian 8 v).length := by
      rw [littleEndian_length]
      exact hc.inside (by omega) (by omega)
    have hfresh : c.addr ∉ (pre ++ k).map Block.addr :=
      (List.nodup_cons.mp (((List.perm_middle (a := c)).map Block.addr).nodup_iff.mp hd)).1
    have hcells : ∀ b ∈ pre ++ k, Cell h b := by
      intro b hb
      rcases List.mem_append.mp hb with hb | hb
      · exact ho.cells b (List.mem_append_left _ hb)
      · exact hk.cells b hb
    have hsame : ∀ b ∈ pre ++ k, ∀ x, b.link ≤ x → x < b.link + 16 →
        (h.write c.link (littleEndian 8 v)).content x = h.content x := by
      intro b hb x h₁ h₂
      have hne : ∀ d ∈ [c], d.addr ≠ b.addr := by
        rintro d hd he
        rw [List.mem_singleton.mp hd] at he
        exact hfresh (he ▸ List.mem_map_of_mem hb)
      have hcell : ∀ d ∈ [c], Cell h d := fun d hd => List.mem_singleton.mp hd ▸ hc
      have := (hcells b hb).bounds
      exact (hcells b hb).rewrites hcell (rewrites_link List.mem_cons_self) hne (by omega) h₂
    have hk' : Owns (h.write c.link (littleEndian 8 v)) v k :=
      hk.frame (fun b hb => (hk.cells b hb).live) fun b hb => hsame b (List.mem_append_right _ hb)
    refine ⟨soap, h.write c.link (littleEndian 8 v), ?_, rfl, ⟨?_, ?_, hd⟩, rewrites_link (by simp)⟩
    · rw [slot_concat, writeSlot, Heap.store_eq hin]
      rfl
    · have hch := ho.chain
      rw [List.map_append, List.map_cons] at hch ⊢
      apply hch.relink
      · intro x hx
        obtain ⟨b, hb, rfl⟩ := List.mem_map.mp hx
        apply congrArg ofLittleEndian
        apply Content.read_congr
        exact fun y h₁ h₂ => hsame b (List.mem_append_left _ hb) y h₁ (by omega)
      · rw [Heap.write_content, word_write _ _ hk.head_lt]
        exact hk'.chain
    · intro b hb
      rcases List.mem_cons.mp (List.perm_middle.mem_iff.mp hb) with rfl | hb
      · have hsized : word (h.content.write b.link (littleEndian 8 v)) (b.link + 8) = b.room := by
          rw [word_write_apart _ (by rw [littleEndian_length]; omega), hc.sized]
        exact ⟨hsized, hc.live, hc.fits⟩
      · exact (hcells b hb).frame (hsame b hb) (hcells b hb).live

theorem Owns.unlink (ho : Owns h soap.alist (pre ++ b :: post)) :
    ∃ soap' h', writeSlot soap h (slot pre) (word h.content b.link) = .ok (soap', h') ∧
      soap' = { soap with alist := soap'.alist } ∧ Owns h' soap'.alist (pre ++ post) ∧ Rewrites pre h h' := by
  apply writeSlot_spec ho ho.suffix
  apply List.Nodup.sublist _ ho.nodup
  exact ((List.Sublist.refl pre).append (List.sublist_cons_self b post)).map _

theorem Owns.addr_ne (ho : Owns h a (pre ++ b :: post)) (hc : c ∈ pre ++ post) : c.addr ≠ b.addr := by
  have hfresh := (List.nodup_cons.mp (((List.perm_middle (a := b)).map Block.addr).nodup_iff.mp ho.nodup)).1
  exact fun he => hfresh (he ▸ List.mem_map_of_mem hc)

theorem Owns.remove (ho : Owns h a l) (hp : ∀ b ∈ l, b.addr ≠ p) : Owns (h.remove p) a l := by
  apply ho.frame
  · intro b hb
    exact List.mem_filter.mpr ⟨(ho.cells b hb).live, decide_eq_true (hp b hb)⟩
  · exact fun _ _ _ _ _ => rfl

def Passed (m : Content) (p : ℕ) (pre : List Block) : Prop := ∀ b ∈ pre, Sound m b ∧ p ≠ b.addr

theorem Passed.concat {m : Content} (h : Passed m p pre) (hs : Sound m b) (hp : p ≠ b.addr) : Passed m p (pre ++ [b]) := by
  intro c hc
  rcases List.mem_append.mp hc with hc | hc
  · exact h c hc
  · exact List.mem_singleton.mp hc ▸ ⟨hs, hp⟩

/-- How a walk for the block at `p` ends: at the end of the chain, at a damaged block, or at the block. -/
inductive Released (soap : Arena) (h : Heap) (p : ℕ) (l : List Block) : Arena → Heap → List Block → Prop
  | absent (hl : Passed h.content p l) : Released soap h p l (soapDelete soap) h l
  | damaged {pre post : List Block} {b : Block} (hl : l = pre ++ b :: post) (hpre : Passed h.content p pre)
      (hb : Sound h.content b = false) : Released soap h p l { soap with error := soapMoe } h l
  | found {pre post : List Block} {b : Block} {alist : ℕ} {h' : Heap} (hl : l = pre ++ b :: post)
      (hpre : Passed h.content p pre) (hb : Sound h.content b) (hp : p = b.addr) (ho : Owns h' alist (pre ++ post))
      (hr : Rewrites pre h h') : Released soap h p l { soap with alist := alist } (h'.remove p) (pre ++ post)

theorem sound_iff {m : Content} : Sound m b = true ↔ half m (b.link - 2) = soapCanary := decide_eq_true_iff

theorem deallocOne_spec {fuel : ℕ} (ho : Owns h soap.alist (pre ++ rest)) (hpre : Passed h.content p pre)
    (hfuel : rest.length < fuel) : ∃ soap' h' l', deallocOne fuel soap h p (slot pre) = .ok (soap', h') ∧
      Released soap h p (pre ++ rest) soap' h' l' := by
  induction rest generalizing pre fuel with
  | nil =>
    obtain ⟨fuel, rfl⟩ := Nat.exists_eq_succ_of_ne_zero (Nat.ne_of_gt (Nat.zero_lt_of_lt hfuel))
    refine ⟨_, h, _, ?_, .absent (by rwa [List.append_nil])⟩
    rw [Nat.succ_eq_add_one, deallocOne, readSlot_eq ho, ok_bind, head, if_pos rfl]
    rfl
  | cons b post ih =>
    obtain ⟨fuel, rfl⟩ := Nat.exists_eq_succ_of_ne_zero (Nat.ne_of_gt (Nat.zero_lt_of_lt hfuel))
    have hb := ho.cells b (by simp)
    rw [Nat.succ_eq_add_one, deallocOne, readSlot_eq ho, ok_bind, head, if_neg hb.link_ne, hb.canary, ok_bind]
    by_cases hs : Sound h.content b
    · rw [if_neg (not_not.mpr (sound_iff.mp hs)), hb.size, ok_bind, hb.addr]
      by_cases hp : p = b.addr
      · obtain ⟨soap', h', hw, hsoap, ho', hr⟩ := ho.unlink
        have hlive : b.extent ∈ h'.blocks := by
          rw [hr.1]
          exact hb.live
        have hfree : h'.free p = .ok (h'.remove p) := hp ▸ Heap.free_eq hlive
        rw [if_pos hp, hb.next, ok_bind, hw, ok_bind]
        dsimp only
        rw [hfree, ok_bind, hsoap]
        exact ⟨_, _, _, rfl, .found rfl hpre hs hp ho' hr⟩
      · have hsplit : pre ++ b :: post = pre ++ [b] ++ post := List.append_cons pre b post
        rw [if_neg hp, ← slot_concat pre b, hsplit]
        rw [hsplit] at ho
        exact ih ho (hpre.concat hs hp) (Nat.succ_lt_succ_iff.mp hfuel)
    · rw [if_pos (mt sound_iff.mpr hs)]
      exact ⟨_, h, _, rfl, .damaged rfl hpre (Bool.eq_false_iff.mpr hs)⟩

/-- Blocks are freed, and besides only links are written. -/
structure Frees (h h' : Heap) (l gone : List Block) : Prop where
  blocks : ∀ e, e ∈ h'.blocks ↔ e ∈ h.blocks ∧ e ∉ gone.map Block.extent
  content : ∀ x, (∀ b ∈ l, x < b.link ∨ b.link + 8 ≤ x) → h'.content x = h.content x

theorem Rewrites.frees (hr : Rewrites l h h') : Frees h h' l [] := by
  refine ⟨fun e => ?_, hr.2⟩
  rw [hr.1]
  simp

theorem frees_refl : Frees h h l [] := Rewrites.frees ⟨rfl, fun _ _ => rfl⟩

theorem Frees.cons {gone : List Block} (hb : b.extent ∈ h.blocks) (hf : Frees (h.remove b.addr) h' l gone) :
    Frees h h' l (b :: gone) := by
  refine ⟨fun e => ?_, hf.content⟩
  have hm : e ∈ (h.remove b.addr).blocks ↔ e ∈ h.blocks ∧ e ≠ b.extent := Heap.mem_remove hb
  rw [hf.blocks, List.map_cons, List.mem_cons, not_or, hm, and_assoc]

theorem forget_of_link (soap : Arena) (a : ℕ) :
    ({ ({ soap with alist := a } : Arena).forget with alist := 0 } : Arena) = { soap.forget with alist := 0 } := rfl

theorem deallocAll_spec {fuel : ℕ} (ho : Owns h soap.alist l) (hfuel : l.length < fuel) :
    ∃ soap' h', deallocAll fuel soap h = .ok (soap', h') ∧ Owns h' soap'.alist (l.dropWhile (Sound h.content)) ∧
      Frees h h' [] (l.takeWhile (Sound h.content)) ∧
      (l.all (Sound h.content) = true → soap' = { soap.forget with alist := 0 }) ∧
      (l.all (Sound h.content) = false → soap' = { soap with error := soapMoe, alist := soap'.alist }) := by
  induction l generalizing soap h fuel with
  | nil =>
    obtain ⟨fuel, rfl⟩ := Nat.exists_eq_succ_of_ne_zero (Nat.ne_of_gt (Nat.zero_lt_of_lt hfuel))
    have h0 : soap.alist = 0 := ho.chain
    refine ⟨soap.forget, h, ?_, ho, frees_refl, fun _ => ?_, fun hall => ?_⟩
    · rw [Nat.succ_eq_add_one, deallocAll, if_pos h0]
      rfl
    · rw [← h0]
      rfl
    · cases hall
  | cons b l ih =>
    obtain ⟨fuel, rfl⟩ := Nat.exists_eq_succ_of_ne_zero (Nat.ne_of_gt (Nat.zero_lt_of_lt hfuel))
    have hb := ho.cells b List.mem_cons_self
    have hhead : soap.alist = b.link := ho.chain.1
    have hne : soap.alist ≠ 0 := hhead ▸ hb.link_ne
    have hcanary : h.loadHalf (below soap.alist 2) = .ok (half h.content (b.link - 2)) := by rw [hhead, hb.canary]
    rw [Nat.succ_eq_add_one, deallocAll, if_neg hne, hcanary, ok_bind]
    by_cases hs : Sound h.content b
    · have ho₀ : Owns h soap.alist ([] ++ b :: l) := ho
      have hrest : Owns (h.remove b.addr) (word h.content b.link) l := by
        apply ho₀.suffix.remove
        exact fun c hc => ho₀.addr_ne hc
      have hnext : h.loadWord soap.alist = .ok (word h.content b.link) := by rw [hhead, hb.next]
      have hsize : h.loadWord (soap.alist + 8) = .ok b.room := by rw [hhead, hb.size]
      have haddr : below soap.alist b.room = b.addr := by rw [hhead, hb.addr]
      have hfree : h.free b.addr = .ok (h.remove b.addr) := Heap.free_eq hb.live
      have hrest' : Owns (h.remove b.addr) ({ soap with alist := word h.content b.link } : Arena).alist l := hrest
      obtain ⟨soap', h', heq, ho', hf, hall, hany⟩ := ih hrest' (Nat.succ_lt_succ_iff.mp hfuel)
      rw [if_neg (not_not.mpr (sound_iff.mp hs)), hnext, ok_bind, hsize, ok_bind, haddr, hfree, ok_bind]
      refine ⟨soap', h', heq, ?_, ?_, ?_, ?_⟩
      · rw [List.dropWhile_cons_of_pos hs]
        exact ho'
      · rw [List.takeWhile_cons_of_pos hs]
        exact Frees.cons hb.live hf
      · rw [List.all_cons, hs, Bool.true_and]
        intro hsound
        rw [hall hsound, forget_of_link]
      · rw [List.all_cons, hs, Bool.true_and]
        exact hany
    · rw [if_pos (mt sound_iff.mpr hs)]
      refine ⟨_, h, rfl, ?_, ?_, fun hall => ?_, fun _ => rfl⟩
      · rw [List.dropWhile_cons_of_neg hs]
        exact ho
      · rw [List.takeWhile_cons_of_neg hs]
        exact frees_refl
      · rw [List.all_cons, Bool.and_eq_true] at hall
        exact absurd hall.1 hs

/-- How a walk for the block at `p` ends that does not look at the canaries. -/
inductive Unlinked (soap : Arena) (h : Heap) (p : ℕ) (l : List Block) : Bool → Arena → Heap → List Block → Prop
  | absent (hl : ∀ b ∈ l, p ≠ b.addr) : Unlinked soap h p l false soap h l
  | found {pre post : List Block} {b : Block} {alist : ℕ} {h' : Heap} (hl : l = pre ++ b :: post) (hp : p = b.addr)
      (ho : Owns h' alist (pre ++ post)) (hr : Rewrites pre h h') (hb : Cell h' b) :
      Unlinked soap h p l true { soap with alist := alist } h' (pre ++ post)

theorem unlinkLoop_spec {fuel : ℕ} (ho : Owns h soap.alist (pre ++ rest)) (hpre : ∀ b ∈ pre, p ≠ b.addr)
    (hfuel : rest.length < fuel) : ∃ x soap' h' l', unlinkLoop fuel soap h p (slot pre) = .ok (x, soap', h') ∧
      Unlinked soap h p (pre ++ rest) x soap' h' l' := by
  induction rest generalizing pre fuel with
  | nil =>
    obtain ⟨fuel, rfl⟩ := Nat.exists_eq_succ_of_ne_zero (Nat.ne_of_gt (Nat.zero_lt_of_lt hfuel))
    refine ⟨_, _, h, _, ?_, .absent (by rwa [List.append_nil])⟩
    rw [Nat.succ_eq_add_one, unlinkLoop, readSlot_eq ho, ok_bind, head, if_pos rfl]
    rfl
  | cons b post ih =>
    obtain ⟨fuel, rfl⟩ := Nat.exists_eq_succ_of_ne_zero (Nat.ne_of_gt (Nat.zero_lt_of_lt hfuel))
    have hb := ho.cells b (by simp)
    rw [Nat.succ_eq_add_one, unlinkLoop, readSlot_eq ho, ok_bind, head, if_neg hb.link_ne, hb.size, ok_bind, hb.addr]
    by_cases hp : p = b.addr
    · obtain ⟨soap', h', hw, hsoap, ho', hr⟩ := ho.unlink
      have hb' : Cell h' b := by
        have hbounds := hb.bounds
        have hne : ∀ c ∈ pre, c.addr ≠ b.addr := fun c hc => ho.addr_ne (List.mem_append_left _ hc)
        have hpre' : ∀ c ∈ pre, Cell h c := fun c hc => ho.cells c (List.mem_append_left _ hc)
        exact hb.frame (fun x h₁ h₂ => hb.rewrites hpre' hr hne (by omega) h₂) (hr.1 ▸ hb.live)
      rw [if_pos hp, hb.next, ok_bind, hw, ok_bind, hsoap]
      exact ⟨_, _, _, _, rfl, .found rfl hp ho' hr hb'⟩
    · have hsplit : pre ++ b :: post = pre ++ [b] ++ post := List.append_cons pre b post
      rw [if_neg hp, ← slot_concat pre b, hsplit]
      rw [hsplit] at ho
      apply ih ho _ (Nat.succ_lt_succ_iff.mp hfuel)
      intro c hc
      rcases List.mem_append.mp hc with hc | hc
      · exact hpre c hc
      · exact List.mem_singleton.mp hc ▸ hp

theorem lastSlot_spec {fuel : ℕ} (ho : Owns h soap.alist (pre ++ rest)) (hfuel : rest.length < fuel) :
    (rest.all (Sound h.content) = true → lastSlot fuel soap h (slot pre) = .ok (some (slot (pre ++ rest)))) ∧
      (rest.all (Sound h.content) = false → lastSlot fuel soap h (slot pre) = .ok none) := by
  induction rest generalizing pre fuel with
  | nil =>
    obtain ⟨fuel, rfl⟩ := Nat.exists_eq_succ_of_ne_zero (Nat.ne_of_gt (Nat.zero_lt_of_lt hfuel))
    rw [Nat.succ_eq_add_one, lastSlot, readSlot_eq ho, ok_bind, head, if_pos rfl, List.append_nil]
    refine ⟨fun _ => rfl, fun hall => ?_⟩
    cases hall
  | cons b post ih =>
    obtain ⟨fuel, rfl⟩ := Nat.exists_eq_succ_of_ne_zero (Nat.ne_of_gt (Nat.zero_lt_of_lt hfuel))
    have hb := ho.cells b (by simp)
    rw [Nat.succ_eq_add_one, lastSlot, readSlot_eq ho, ok_bind, head, if_neg hb.link_ne, hb.canary, ok_bind]
    by_cases hs : Sound h.content b
    · have hsplit : pre ++ b :: post = pre ++ [b] ++ post := List.append_cons pre b post
      rw [if_neg (not_not.mpr (sound_iff.mp hs)), List.all_cons, hs, Bool.true_and, ← slot_concat pre b, hsplit]
      rw [hsplit] at ho
      exact ih ho (Nat.succ_lt_succ_iff.mp hfuel)
    · rw [if_pos (mt sound_iff.mpr hs)]
      refine ⟨fun hall => ?_, fun _ => rfl⟩
      rw [List.all_cons, Bool.and_eq_true] at hall
      exact absurd hall.1 hs

/-- A walk over the chain needs no more turns than there are blocks. -/
theorem Owns.length_le (ho : Owns h a l) : l.length ≤ h.blocks.length := by
  have hnodup : (l.map Block.extent).Nodup := by
    have hmap : l.map Block.addr = (l.map Block.extent).map Extent.addr := by
      rw [List.map_map]
      rfl
    exact List.Nodup.of_map Extent.addr (hmap ▸ ho.nodup)
  have hsub : l.map Block.extent ⊆ h.blocks := by
    intro e he
    obtain ⟨b, hb, rfl⟩ := List.mem_map.mp he
    exact (ho.cells b hb).live
  have hle := (hnodup.subperm hsub).length_le
  rwa [List.length_map] at hle

theorem Rewrites.mono (hr : Rewrites k h h') (hk : ∀ b ∈ k, b ∈ l) : Rewrites l h h' :=
  ⟨hr.1, fun x hx => hr.2 x fun b hb => hx b (hk b hb)⟩

theorem Released.owns {l' : List Block} (ho : Owns h soap.alist l) (hr : Released soap h p l soap' h' l') :
    Owns h' soap'.alist l' ∧ ∃ gone, l.Perm (l' ++ [] ++ gone) ∧ Frees h h' l gone := by
  cases hr with
  | absent _ => exact ⟨ho, [], by simp, frees_refl⟩
  | damaged _ _ _ => exact ⟨ho, [], by simp, frees_refl⟩
  | @found pre post b alist g hl _ _ hp hg hr =>
    subst hl hp
    have hlive : b.extent ∈ g.blocks := by
      rw [hr.1]
      exact (ho.cells b (by simp)).live
    refine ⟨hg.remove fun c hc => ho.addr_ne hc, [b], ?_, ?_, ?_⟩
    · rw [List.append_nil]
      exact List.perm_middle.trans (List.perm_append_singleton b _).symm
    · intro e
      have hm : e ∈ (g.remove b.addr).blocks ↔ e ∈ g.blocks ∧ e ≠ b.extent := Heap.mem_remove hlive
      rw [hm, hr.1, List.map_singleton, List.mem_singleton]
    · exact (hr.mono fun c hc => List.mem_append_left _ hc).2

theorem Unlinked.owns {l' : List Block} {x : Bool} (ho : Owns h soap.alist l) (hr : Unlinked soap h p l x soap' h' l') :
    Owns h' soap'.alist (l.filter fun b => p ≠ b.addr) ∧ (∀ b ∈ l, p = b.addr → Cell h' b) ∧ Frees h h' l [] := by
  cases hr with
  | absent hl =>
    have hall : (l.filter fun b => p ≠ b.addr) = l := List.filter_eq_self.mpr fun b hb => decide_eq_true (hl b hb)
    rw [hall]
    exact ⟨ho, fun b hb hp => absurd hp (hl b hb), frees_refl⟩
  | @found pre post b alist _ hl hp hg hr hb =>
    subst hl hp
    have hne : ∀ c ∈ pre ++ post, b.addr ≠ c.addr := fun c hc => (ho.addr_ne hc).symm
    have hall : ((pre ++ b :: post).filter fun c => b.addr ≠ c.addr) = pre ++ post := by
      have hpre := List.filter_eq_self.mpr fun c (hc : c ∈ pre) => decide_eq_true (hne c (List.mem_append_left _ hc))
      have hpost := List.filter_eq_self.mpr fun c (hc : c ∈ post) => decide_eq_true (hne c (List.mem_append_right _ hc))
      rw [List.filter_append, List.filter_cons_of_neg (by simp), hpre, hpost]
    rw [hall]
    refine ⟨hg, ?_, (hr.mono fun c hc => List.mem_append_left _ hc).frees⟩
    intro c hc hcb
    rcases List.mem_cons.mp (List.perm_middle.mem_iff.mp hc) with rfl | hc
    · exact hb
    · exact absurd hcb (hne c hc)

theorem blockSize_bounds {k : ℕ} (hk : k < 2 ^ 64) (hfit : ¬ (blockSize k + 16) % 2 ^ 64 < k) :
    k + 2 ≤ blockSize k ∧ blockSize k < k + 10 ∧ blockSize k % 8 = 0 ∧ blockSize k + 16 < 2 ^ 64 := by
  have hand : ∀ x : ℕ, x &&& 7 = x % 8 := fun x => Nat.and_two_pow_sub_one_eq_mod x 3
  have hpad : blockSize k = ((k + 2) % 2 ^ 64 + (2 ^ 64 - (k + 2) % 2 ^ 64) % 2 ^ 64 % 8) % 2 ^ 64 := by
    simp only [blockSize, hand]
  omega

/-- What `soap_malloc` does where it gives out a block. -/
structure Grows (h h' : Heap) (b : Block) : Prop where
  blocks : h'.blocks = b.extent :: h.blocks
  content : ∀ x, x < b.addr ∨ b.link + 16 ≤ x → h'.content x = h.content x
  sound : Sound h'.content b = true

theorem Grows.fresh (hg : Grows h h' b) : ∀ e ∈ h.blocks, b.extent.Apart e := by
  have hap := h'.apart
  rw [hg.blocks] at hap
  exact (List.pairwise_cons.mp hap).1

theorem Grows.addr_ne (hg : Grows h h' b) (hc : c.extent ∈ h.blocks) : c.addr ≠ b.addr := by
  have hap := hg.fresh _ hc
  simp only [Extent.Apart, Block.extent] at hap
  omega

theorem Grows.frame (hg : Grows h h' b) (hc : c.extent ∈ h.blocks) {x : ℕ} (hx : c.addr ≤ x) (hx' : x < c.link + 16) :
    h'.content x = h.content x := by
  have hap := hg.fresh _ hc
  apply hg.content
  simp only [Extent.Apart, Block.extent, Block.link] at *
  omega

theorem Grows.cell (hg : Grows h h' b) (hc : Cell h c) : Cell h' c := by
  have hbounds := hc.bounds
  apply hc.frame
  · exact fun x h₁ h₂ => hg.frame hc.live (by omega) h₂
  · exact hg.blocks ▸ List.mem_cons_of_mem _ hc.live

theorem Grows.owns (hg : Grows h h' b) (ho : Owns h a l) : Owns h' a l := by
  apply ho.frame
  · exact fun c hc => (hg.cell (ho.cells c hc)).live
  · intro c hc x h₁ h₂
    have hbounds := (ho.cells c hc).bounds
    exact hg.frame (ho.cells c hc).live (by omega) h₂

theorem stamp_spec {p n alist : ℕ} (hn : 2 ≤ n) (ha : alist < 2 ^ 64) (hp : ⟨p, n + 16⟩ ∈ h.blocks) :
    ∃ h', stamp h p n alist = .ok h' ∧ h'.blocks = h.blocks ∧
      (∀ x, x < p ∨ p + n + 16 ≤ x → h'.content x = h.content x) ∧
      half h'.content (p + n - 2) = soapCanary ∧ word h'.content (p + n) = alist ∧ word h'.content (p + n + 8) = n := by
  have hfits := (h.mapped _ hp).fits
  simp only at hfits
  have hin : ∀ {g : Heap} {x : ℕ} {s : List UInt8}, g.blocks = h.blocks → p ≤ x → x + s.length ≤ p + n + 16 →
      g.store x s = .ok (g.write x s) := by
    intro g x s hg hx hs
    apply Heap.store_eq
    apply Heap.inside_of_mem (hg ▸ hp)
    exact ⟨hx, hs⟩
  refine ⟨((h.write (p + n - 2) (littleEndian 2 soapCanary)).write (p + n) (littleEndian 8 alist)).write (p + n + 8)
    (littleEndian 8 n), ?_, rfl, ?_, ?_, ?_, ?_⟩
  · have h₁ : h.store (p + n - 2) (littleEndian 2 soapCanary) = .ok _ :=
      hin rfl (by omega) (by rw [littleEndian_length]; omega)
    have h₂ : (h.write (p + n - 2) (littleEndian 2 soapCanary)).store (p + n) (littleEndian 8 alist) = .ok _ :=
      hin rfl (by omega) (by rw [littleEndian_length]; omega)
    rw [stamp, h₁, ok_bind, h₂, ok_bind]
    exact hin rfl (by omega) (by rw [littleEndian_length])
  · intro x hx
    simp only [Heap.write_content]
    rw [Content.write_of_not _ (by rw [littleEndian_length]; omega),
      Content.write_of_not _ (by rw [littleEndian_length]; omega),
      Content.write_of_not _ (by rw [littleEndian_length]; omega)]
  · simp only [Heap.write_content]
    rw [half_write_apart _ (by rw [littleEndian_length]; omega), half_write_apart _ (by rw [littleEndian_length]; omega),
      half_write _ _ (by decide)]
  · simp only [Heap.write_content]
    rw [word_write_apart _ (by rw [littleEndian_length]; omega), word_write _ _ ha]
  · exact word_write _ _ (by omega)

theorem soapMalloc_spec {k : ℕ} (place : ℕ) (fill : Content) (ho : Owns h soap.alist l) (hk : k < 2 ^ 64) :
    soapMalloc soap h k place fill = .ok (0, { soap with error := Gsoap.soapEom }, h) ∨
      ∃ b h', b = ⟨b.addr, k, blockSize k⟩ ∧ soapMalloc soap h k place fill = .ok (b.addr, { soap with alist := b.link }, h') ∧
        Owns h' b.link (b :: l) ∧ Grows h h' b := by
  by_cases hfit : (blockSize k + 16) % 2 ^ 64 < k
  · left
    rw [soapMalloc, if_pos hfit]
  · obtain ⟨hroom, hlt, hmod, hsize⟩ := blockSize_bounds hk hfit
    have hsum : (blockSize k + 16) % 2 ^ 64 = blockSize k + 16 := Nat.mod_eq_of_lt hsize
    rw [soapMalloc, if_neg hfit, hsum]
    by_cases he : h.Room ⟨place, blockSize k + 16⟩
    · right
      have hmem : ⟨place, blockSize k + 16⟩ ∈ (h.add ⟨place, blockSize k + 16⟩ he fill).blocks := List.mem_cons_self
      obtain ⟨h', hstamp, hblocks, hsame, hcanary, hlink, hword⟩ := stamp_spec (by omega) ho.head_lt hmem
      have hg : Grows h h' ⟨place, k, blockSize k⟩ := by
        refine ⟨hblocks, ?_, sound_iff.mpr hcanary⟩
        intro x hx
        rw [hsame x hx]
        apply if_neg
        simp only [Block.link] at hx ⊢
        omega
      have hrest : Owns h' soap.alist l := hg.owns ho
      have hmap : h.malloc (blockSize k + 16) place fill = some (place, h.add ⟨place, blockSize k + 16⟩ he fill) := dif_pos he
      refine ⟨⟨place, k, blockSize k⟩, h', rfl, ?_, ⟨⟨rfl, ?_, ?_⟩, ?_, ?_⟩, hg⟩
      · rw [hmap]
        dsimp only
        rw [hstamp, ok_bind]
        rfl
      · have hpos := he.1.addr
        simp only [Block.link] at hpos ⊢
        omega
      · change Chain _ (word h'.content (place + blockSize k)) _
        rw [hlink]
        exact hrest.chain
      · intro c hc
        rcases List.mem_cons.mp hc with rfl | hc
        · exact ⟨hword, hblocks ▸ hmem, hroom⟩
        · exact hrest.cells c hc
      · rw [List.map_cons, List.nodup_cons]
        refine ⟨?_, hrest.nodup⟩
        intro hin
        obtain ⟨c, hc, hca⟩ := List.mem_map.mp hin
        exact hg.addr_ne (ho.cells c hc).live hca
    · left
      have hnone : h.malloc (blockSize k + 16) place fill = none := dif_neg he
      rw [hnone]

end OnvifSdk.ContextMemory
