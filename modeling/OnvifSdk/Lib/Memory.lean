import OnvifSdk.Lib.Program

namespace OnvifSdk.Lib.Memory

theorem ok_bind {α β : Type} (a : α) (f : α → Outcome β) : ((.ok a : Outcome α) >>= f) = f a := rfl

def littleEndian : ℕ → ℕ → List UInt8
  | 0, _ => []
  | w + 1, n => UInt8.ofNat n :: littleEndian w (n / 256)

def ofLittleEndian : List UInt8 → ℕ
  | [] => 0
  | b :: s => b.toNat + 256 * ofLittleEndian s

@[simp] theorem littleEndian_length (w n : ℕ) : (littleEndian w n).length = w := by
  induction w generalizing n with
  | zero => rfl
  | succ w ih => rw [littleEndian, List.length_cons, ih]

theorem ofLittleEndian_littleEndian (w n : ℕ) : ofLittleEndian (littleEndian w n) = n % 256 ^ w := by
  induction w generalizing n with
  | zero => rw [pow_zero, Nat.mod_one]; rfl
  | succ w ih =>
    rw [littleEndian, ofLittleEndian, ih, pow_succ', Nat.mod_mul]
    rfl

abbrev Content := ℕ → UInt8

def Content.read (m : Content) (a n : ℕ) : List UInt8 := (List.range n).map fun i => m (a + i)

def Content.write (m : Content) (a : ℕ) (s : List UInt8) : Content :=
  fun x => if a ≤ x ∧ x < a + s.length then s.getD (x - a) 0 else m x

theorem Content.write_of_not (m : Content) {a x : ℕ} {s : List UInt8} (h : ¬ (a ≤ x ∧ x < a + s.length)) :
    m.write a s x = m x := if_neg h

theorem Content.read_congr {m m' : Content} {a n : ℕ} (h : ∀ x, a ≤ x → x < a + n → m' x = m x) :
    m'.read a n = m.read a n := by
  apply List.map_congr_left
  intro i hi
  have := List.mem_range.mp hi
  exact h _ (by omega) (by omega)

theorem Content.read_write_apart (m : Content) {a b n : ℕ} {s : List UInt8}
    (h : a + n ≤ b ∨ b + s.length ≤ a) : (m.write b s).read a n = m.read a n := by
  apply read_congr
  intro x h₁ h₂
  exact m.write_of_not (by omega)

theorem Content.read_write (m : Content) (a : ℕ) (s : List UInt8) : (m.write a s).read a s.length = s := by
  apply List.ext_getElem
  · simp [read]
  · intro i h₁ h₂
    simp [read, write, h₂]

def word (m : Content) (a : ℕ) : ℕ := ofLittleEndian (m.read a 8)

theorem word_write_apart (m : Content) {a b : ℕ} {s : List UInt8} (h : a + 8 ≤ b ∨ b + s.length ≤ a) :
    word (m.write b s) a = word m a := by
  rw [word, m.read_write_apart h, word]

theorem word_write (m : Content) (a : ℕ) {n : ℕ} (hn : n < 2 ^ 64) : word (m.write a (littleEndian 8 n)) a = n := by
  have h := m.read_write a (littleEndian 8 n)
  rw [littleEndian_length] at h
  rw [word, h, ofLittleEndian_littleEndian]
  exact Nat.mod_eq_of_lt hn

def half (m : Content) (a : ℕ) : ℕ := ofLittleEndian (m.read a 2)

theorem half_write_apart (m : Content) {a b : ℕ} {s : List UInt8} (h : a + 2 ≤ b ∨ b + s.length ≤ a) :
    half (m.write b s) a = half m a := by
  rw [half, m.read_write_apart h, half]

theorem half_write (m : Content) (a : ℕ) {n : ℕ} (hn : n < 2 ^ 16) : half (m.write a (littleEndian 2 n)) a = n := by
  have h := m.read_write a (littleEndian 2 n)
  rw [littleEndian_length] at h
  rw [half, h, ofLittleEndian_littleEndian]
  exact Nat.mod_eq_of_lt hn

structure Extent where
  addr : ℕ
  size : ℕ
  deriving DecidableEq

namespace Extent

def Apart (e f : Extent) : Prop := e.addr + e.size ≤ f.addr ∨ f.addr + f.size ≤ e.addr

instance (e f : Extent) : Decidable (e.Apart f) := inferInstanceAs (Decidable (_ ∨ _))

instance : Std.Symm Apart := ⟨fun _ _ h => Or.symm h⟩

/-- The null address is outside, and so is the end of the address space. -/
structure Mapped (e : Extent) : Prop where
  addr : 0 < e.addr
  size : 0 < e.size
  fits : e.addr + e.size < 2 ^ 64

instance (e : Extent) : Decidable e.Mapped :=
  decidable_of_iff (0 < e.addr ∧ 0 < e.size ∧ e.addr + e.size < 2 ^ 64)
    ⟨fun h => ⟨h.1, h.2.1, h.2.2⟩, fun h => ⟨h.addr, h.size, h.fits⟩⟩

def Holds (e : Extent) (a n : ℕ) : Prop := e.addr ≤ a ∧ a + n ≤ e.addr + e.size

instance (e : Extent) (a n : ℕ) : Decidable (e.Holds a n) := inferInstanceAs (Decidable (_ ∧ _))

end Extent

structure Heap where
  content : Content
  blocks : List Extent
  mapped : ∀ e ∈ blocks, e.Mapped
  apart : blocks.Pairwise Extent.Apart

namespace Heap

def empty (m : Content) : Heap := ⟨m, [], nofun, .nil⟩

def Inside (h : Heap) (a n : ℕ) : Prop := ∃ e ∈ h.blocks, e.Holds a n

instance (h : Heap) (a n : ℕ) : Decidable (h.Inside a n) := inferInstanceAs (Decidable (∃ e ∈ h.blocks, e.Holds a n))

def load (h : Heap) (a n : ℕ) : Outcome (List UInt8) :=
  if h.Inside a n then .ok (h.content.read a n) else .error .memory

def loadWord (h : Heap) (a : ℕ) : Outcome ℕ := (h.load a 8).map ofLittleEndian

def loadHalf (h : Heap) (a : ℕ) : Outcome ℕ := (h.load a 2).map ofLittleEndian

def write (h : Heap) (a : ℕ) (s : List UInt8) : Heap := { h with content := h.content.write a s }

def store (h : Heap) (a : ℕ) (s : List UInt8) : Outcome Heap :=
  if h.Inside a s.length then .ok (h.write a s) else .error .memory

def Room (h : Heap) (e : Extent) : Prop := e.Mapped ∧ ∀ f ∈ h.blocks, e.Apart f

instance (h : Heap) (e : Extent) : Decidable (h.Room e) := inferInstanceAs (Decidable (_ ∧ _))

def add (h : Heap) (e : Extent) (he : h.Room e) (fill : Content) : Heap where
  content := fun x => if e.addr ≤ x ∧ x < e.addr + e.size then fill x else h.content x
  blocks := e :: h.blocks
  mapped := List.forall_mem_cons.mpr ⟨he.1, h.mapped⟩
  apart := List.pairwise_cons.mpr ⟨he.2, h.apart⟩

/-- `malloc`, which may choose any place and leaves anything there; where the place has no room it fails. -/
def malloc (h : Heap) (n place : ℕ) (fill : Content) : Option (ℕ × Heap) :=
  if he : h.Room ⟨place, n⟩ then some (place, h.add ⟨place, n⟩ he fill) else none

def remove (h : Heap) (p : ℕ) : Heap where
  content := h.content
  blocks := h.blocks.filter fun e => e.addr ≠ p
  mapped := fun e he => h.mapped e (List.mem_of_mem_filter he)
  apart := h.apart.filter _

def free (h : Heap) (p : ℕ) : Outcome Heap :=
  if p = 0 then .ok h
  else if ∃ e ∈ h.blocks, e.addr = p then .ok (h.remove p)
  else .error .memory

variable {h : Heap} {a n p : ℕ} {e f : Extent}

theorem inside_of_mem (he : e ∈ h.blocks) (hh : e.Holds a n) : h.Inside a n := ⟨e, he, hh⟩

theorem loadWord_eq (hi : h.Inside a 8) : h.loadWord a = .ok (word h.content a) := by
  simp only [loadWord, load, if_pos hi, Except.map, word]

theorem loadHalf_eq (hi : h.Inside a 2) : h.loadHalf a = .ok (half h.content a) := by
  simp only [loadHalf, load, if_pos hi, Except.map, half]

theorem store_eq {s : List UInt8} (hi : h.Inside a s.length) : h.store a s = .ok (h.write a s) := if_pos hi

@[simp] theorem write_content (s : List UInt8) : (h.write a s).content = h.content.write a s := rfl

theorem free_eq (he : e ∈ h.blocks) : h.free e.addr = .ok (h.remove e.addr) := by
  have hne : e.addr ≠ 0 := (h.mapped e he).addr.ne'
  rw [free, if_neg hne, if_pos ⟨e, he, rfl⟩]

theorem apart_of_mem (he : e ∈ h.blocks) (hf : f ∈ h.blocks) (hne : e ≠ f) : e.Apart f :=
  h.apart.forall he hf hne

theorem eq_of_addr (he : e ∈ h.blocks) (hf : f ∈ h.blocks) (ha : e.addr = f.addr) : e = f := by
  by_contra hne
  have h₁ := (h.mapped e he).size
  have h₂ := (h.mapped f hf).size
  rcases apart_of_mem he hf hne with h₃ | h₃ <;> omega

theorem mem_remove (he : e ∈ h.blocks) : f ∈ (h.remove e.addr).blocks ↔ f ∈ h.blocks ∧ f ≠ e := by
  simp only [remove, List.mem_filter, decide_eq_true_eq, ne_eq, and_congr_right_iff]
  intro hf
  refine not_congr ⟨fun ha => eq_of_addr hf he ha, fun hfe => by rw [hfe]⟩

end Heap

/-- A list that is threaded through the cells: `next` is what a cell holds, and the last one holds null. -/
def Chain (next : ℕ → ℕ) : ℕ → List ℕ → Prop
  | a, [] => a = 0
  | a, l :: ls => a = l ∧ l ≠ 0 ∧ Chain next (next l) ls

namespace Chain

variable {next next' : ℕ → ℕ} {a b l : ℕ} {ls ms : List ℕ}

theorem congr (h : Chain next a ls) (hn : ∀ x ∈ ls, next' x = next x) : Chain next' a ls := by
  induction ls generalizing a with
  | nil => exact h
  | cons l ls ih =>
    obtain ⟨ha, hl, hr⟩ := h
    rw [← hn l List.mem_cons_self] at hr
    exact ⟨ha, hl, ih hr fun x hx => hn x (List.mem_cons_of_mem _ hx)⟩

theorem tail (h : Chain next a (ls ++ l :: ms)) : Chain next l (l :: ms) := by
  induction ls generalizing a with
  | nil =>
    obtain ⟨rfl, _⟩ := id h
    exact h
  | cons k ls ih => exact ih h.2.2

theorem relink (h : Chain next a (ls ++ l :: ms)) (hn : ∀ x ∈ ls, next' x = next x)
    {ks : List ℕ} (hk : Chain next' (next' l) ks) : Chain next' a (ls ++ l :: ks) := by
  induction ls generalizing a with
  | nil => exact ⟨h.1, h.2.1, hk⟩
  | cons k ls ih =>
    obtain ⟨ha, hk', hr⟩ := h
    rw [← hn k List.mem_cons_self] at hr
    exact ⟨ha, hk', ih hr fun x hx => hn x (List.mem_cons_of_mem _ hx)⟩

end Chain

end OnvifSdk.Lib.Memory
