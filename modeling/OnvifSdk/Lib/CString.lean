import OnvifSdk.Lib.Program

namespace OnvifSdk.Lib

/-- What a `char *` points to when it is used as a string: the bytes before the terminator. -/
@[ext]
structure CStr where
  bytes : List UInt8
  nul_free : 0 ∉ bytes
  deriving DecidableEq

def colon : UInt8 := 58

def slash : UInt8 := 47

def atSign : UInt8 := 64

def cstring (m : List UInt8) : CStr where
  bytes := m.takeWhile (· != 0)
  nul_free h := by simpa using List.mem_takeWhile_imp h

def CStr.length (s : CStr) : ℕ := s.bytes.length

def utf8 (s : String) : List UInt8 := s.toList.flatMap String.utf8EncodeChar

def CStr.lit (s : String) : CStr := cstring (utf8 s)

theorem takeWhile_nul_free {s : List UInt8} (h : 0 ∉ s) (m : List UInt8) :
    (s ++ 0 :: m).takeWhile (· != 0) = s := by
  rw [List.takeWhile_append_of_pos]
  · simp
  · intro b hb
    have : b ≠ 0 := fun he => h (he ▸ hb)
    simpa using this

theorem cstring_of_nul_free {s : List UInt8} (h : 0 ∉ s) : (cstring s).bytes = s := by
  apply List.takeWhile_eq_self_iff.mpr
  intro b hb
  have : b ≠ 0 := fun he => h (he ▸ hb)
  simpa using this

theorem cstring_length_le (m : List UInt8) : (cstring m).length ≤ m.length :=
  (List.takeWhile_prefix _).length_le

@[simp] theorem cstring_bytes (s : CStr) : cstring s.bytes = s :=
  CStr.ext (cstring_of_nul_free s.nul_free)

@[simp] theorem cstring_terminated (s : CStr) (m : List UInt8) : cstring (s.bytes ++ 0 :: m) = s :=
  CStr.ext (takeWhile_nul_free s.nul_free m)

theorem CStr.nul_free_append (s s' : CStr) : 0 ∉ s.bytes ++ s'.bytes := by
  simp [s.nul_free, s'.nul_free]

def CStr.append (s s' : CStr) : CStr := ⟨s.bytes ++ s'.bytes, s.nul_free_append s'⟩

@[simp] theorem CStr.append_bytes (s s' : CStr) : (s.append s').bytes = s.bytes ++ s'.bytes := rfl

/-- Every read and write below names the memory it may touch; leaving it is a fault. -/
def memset (m : List UInt8) (v : UInt8) (n : ℕ) : Outcome (List UInt8) :=
  if n ≤ m.length then .ok (List.replicate n v ++ m.drop n) else .error .memory

def write (m : List UInt8) (i : ℕ) (data : List UInt8) : Outcome (List UInt8) :=
  if i + data.length ≤ m.length then .ok (m.take i ++ data ++ m.drop (i + data.length))
  else .error .memory

def strlen (m : List UInt8) : Outcome ℕ :=
  if 0 ∈ m then .ok (cstring m).length else .error .memory

def strcpy (m : List UInt8) (src : CStr) : Outcome (List UInt8) := write m 0 (src.bytes ++ [0])

def strcat (m : List UInt8) (src : CStr) : Outcome (List UInt8) := do
  let n ← strlen m
  write m n (src.bytes ++ [0])

def strstr : List UInt8 → List UInt8 → Option (List UInt8)
  | [], pat => if pat = [] then some [] else none
  | c :: s, pat => if pat <+: c :: s then some (c :: s) else strstr s pat

/-- `pat` stands in `s` behind `front` and nowhere further left. -/
structure SplitsAtFirst (pat s front back : List UInt8) : Prop where
  split : s = front ++ pat ++ back
  first : ∀ front' back', s = front' ++ pat ++ back' → front.length ≤ front'.length

theorem SplitsAtFirst.unique {pat s front back front' back' : List UInt8}
    (h : SplitsAtFirst pat s front back) (h' : SplitsAtFirst pat s front' back') :
    front = front' ∧ back = back' := by
  have hl : front.length = front'.length :=
    Nat.le_antisymm (h.first _ _ h'.split) (h'.first _ _ h.split)
  have hs := h.split.symm.trans h'.split
  rw [List.append_assoc, List.append_assoc] at hs
  obtain ⟨rfl, hback⟩ := List.append_inj hs hl
  exact ⟨rfl, List.append_cancel_left hback⟩

theorem SplitsAtFirst.cons {pat s front back : List UInt8} {c : UInt8} (hc : ¬ pat <+: c :: s)
    (h : SplitsAtFirst pat s front back) : SplitsAtFirst pat (c :: s) (c :: front) back := by
  refine ⟨by rw [h.split]; rfl, ?_⟩
  intro front' back' hs
  cases front' with
  | nil => exact absurd ⟨back', hs.symm⟩ hc
  | cons d front' =>
    rw [List.cons_append, List.cons_append] at hs
    exact Nat.succ_le_succ (h.first front' back' (List.cons.inj hs).2)

theorem splitsAtFirst_of_strstr {s pat p : List UInt8} (h : strstr s pat = some p) :
    ∃ front back, p = pat ++ back ∧ SplitsAtFirst pat s front back := by
  induction s with
  | nil =>
    simp only [strstr, Option.ite_none_right_eq_some, Option.some.injEq] at h
    obtain ⟨rfl, rfl⟩ := h
    exact ⟨[], [], rfl, rfl, fun _ _ _ => Nat.zero_le _⟩
  | cons c s ih =>
    rw [strstr] at h
    split_ifs at h with hc
    · obtain ⟨back, hback⟩ := hc
      obtain rfl := Option.some.inj h
      exact ⟨[], back, hback.symm, hback.symm, fun _ _ _ => Nat.zero_le _⟩
    · obtain ⟨front, back, rfl, hs⟩ := ih h
      exact ⟨c :: front, back, rfl, hs.cons hc⟩

theorem strstr_eq_none_iff {s pat : List UInt8} : strstr s pat = none ↔ ¬ pat <:+: s := by
  induction s with
  | nil => simp [strstr]
  | cons c s ih =>
    rw [strstr, List.infix_cons_iff]
    split_ifs with hc
    · simp [hc]
    · simp [hc, ih]

theorem SplitsAtFirst.strstr_eq {pat s front back : List UInt8} (h : SplitsAtFirst pat s front back) :
    strstr s pat = some (pat ++ back) := by
  cases hp : strstr s pat with
  | none => exact absurd ⟨front, back, h.split.symm⟩ (strstr_eq_none_iff.mp hp)
  | some p =>
    obtain ⟨front', back', rfl, h'⟩ := splitsAtFirst_of_strstr hp
    rw [(h.unique h').2]

def filled (s : List UInt8) (n : ℕ) : List UInt8 := s ++ List.replicate (n - s.length) 0

theorem filled_length {s : List UInt8} {n : ℕ} (h : s.length ≤ n) : (filled s n).length = n := by
  simp only [filled, List.length_append, List.length_replicate]
  omega

theorem filled_nil (n : ℕ) : filled [] n = List.replicate n 0 := by simp [filled]

theorem filled_zero {s : List UInt8} {n : ℕ} (h : s.length < n) : filled (s ++ [0]) n = filled s n := by
  have hn : n - s.length = (n - (s ++ [0]).length) + 1 := by
    simp only [List.length_append, List.length_singleton]; omega
  simp only [filled, hn, List.replicate_succ, List.append_assoc, List.singleton_append]

theorem cstring_filled (s : CStr) {n : ℕ} (h : s.length < n) (m : List UInt8) :
    cstring (filled s.bytes n ++ m) = s := by
  obtain ⟨k, hk⟩ : ∃ k, n - s.bytes.length = k + 1 :=
    ⟨n - s.bytes.length - 1, by have : s.bytes.length < n := h; omega⟩
  simp only [filled, hk, List.replicate_succ, List.append_assoc, List.cons_append]
  exact cstring_terminated s _

theorem memset_filled {m : List UInt8} {n : ℕ} (h : n ≤ m.length) :
    memset m 0 n = .ok (filled [] n ++ m.drop n) := by simp [memset, h, filled_nil]

theorem write_filled {s data : List UInt8} {n : ℕ} (h : s.length + data.length ≤ n)
    (m : List UInt8) :
    write (filled s n ++ m) s.length data = .ok (filled (s ++ data) n ++ m) := by
  have hs : (filled s n).length = n := filled_length (by omega)
  have hw : s.length + data.length ≤ (filled s n ++ m).length := by
    rw [List.length_append, hs]; omega
  have hz : List.replicate (n - s.length) (0 : UInt8) =
      List.replicate data.length 0 ++ List.replicate (n - (s ++ data).length) 0 := by
    rw [List.replicate_append_replicate]
    congr 1
    simp only [List.length_append]; omega
  simp only [write, hw, ↓reduceIte]
  simp only [filled, hz, List.append_assoc]
  rw [List.take_append_of_le_length le_rfl, List.take_length, List.drop_append]
  simp

theorem strlen_filled (s : CStr) {n : ℕ} (h : s.length < n) (m : List UInt8) :
    strlen (filled s.bytes n ++ m) = .ok s.length := by
  have hz : 0 ∈ filled s.bytes n ++ m := by
    have hn : n - s.bytes.length ≠ 0 := by have : s.bytes.length < n := h; omega
    simp [filled, hn]
  simp only [strlen, hz, ↓reduceIte, cstring_filled s h m]

theorem write_str_filled (s data : CStr) {n : ℕ} (h : s.length + data.length < n) (m : List UInt8) :
    write (filled s.bytes n ++ m) s.length (data.bytes ++ [0]) =
      .ok (filled (s.append data).bytes n ++ m) := by
  have hs : s.bytes.length + data.bytes.length < n := h
  have hl : s.bytes.length + (data.bytes ++ [0]).length ≤ n := by simp; omega
  change write _ s.bytes.length _ = _
  rw [write_filled hl, ← List.append_assoc, filled_zero (by simp; omega), CStr.append_bytes]

theorem strcpy_filled (src : CStr) {n : ℕ} (h : src.length < n) (m : List UInt8) :
    strcpy (filled [] n ++ m) src = .ok (filled src.bytes n ++ m) :=
  write_str_filled ⟨[], by simp⟩ src (by simpa [CStr.length] using h) m

theorem strcat_filled (s src : CStr) {n : ℕ} (h : s.length + src.length < n) (m : List UInt8) :
    strcat (filled s.bytes n ++ m) src = .ok (filled (s.append src).bytes n ++ m) := by
  simp only [strcat, strlen_filled s (show s.length < n by omega) m]
  exact write_str_filled s src h m

@[ext]
structure CharArray (n : ℕ) where
  bytes : List UInt8
  size : bytes.length = n
  deriving DecidableEq

namespace CharArray

variable {n : ℕ}

def zero (n : ℕ) : CharArray n := ⟨List.replicate n 0, List.length_replicate⟩

def str (a : CharArray n) : CStr := cstring a.bytes

def strncpy (a : CharArray n) (src : CStr) (k : ℕ) (h : k ≤ n) : CharArray n where
  bytes := (src.bytes ++ List.replicate k 0).take k ++ a.bytes.drop k
  size := by simp [a.size]; omega

theorem zero_str (n : ℕ) : (zero n).str.bytes = [] := by
  cases n <;> simp [zero, str, cstring, List.replicate_succ]

theorem strncpy_zero_bytes (src : CStr) : ((zero (n + 1)).strncpy src n (Nat.le_succ n)).bytes =
    filled (src.bytes.take n) (n + 1) := by
  have hl : n + 1 - (src.bytes.take n).length = (n - src.bytes.length) + 1 := by
    rw [List.length_take]; omega
  simp only [strncpy, zero, filled, hl]
  rw [List.take_append, List.drop_replicate, List.take_replicate, List.append_assoc,
    List.replicate_append_replicate]
  congr 2
  omega

theorem strncpy_zero_str (src : CStr) :
    ((zero (n + 1)).strncpy src n (Nat.le_succ n)).str.bytes = src.bytes.take n := by
  have hn : 0 ∉ src.bytes.take n := fun h => src.nul_free (List.mem_of_mem_take h)
  let cut : CStr := ⟨src.bytes.take n, hn⟩
  have hc : cut.length < n + 1 := Nat.lt_succ_of_le (List.length_take_le n src.bytes)
  have := cstring_filled cut hc []
  rw [List.append_nil] at this
  simp only [str, strncpy_zero_bytes, show src.bytes.take n = cut.bytes from rfl, this]

theorem strncpy_zero_terminated (src : CStr) :
    0 ∈ ((zero (n + 1)).strncpy src n (Nat.le_succ n)).bytes := by
  rw [strncpy_zero_bytes, filled]
  have hl : n + 1 - (src.bytes.take n).length ≠ 0 := by rw [List.length_take]; omega
  exact List.mem_append_right _ (List.mem_replicate.mpr ⟨hl, rfl⟩)

end CharArray

end OnvifSdk.Lib
