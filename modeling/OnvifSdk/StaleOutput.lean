import OnvifSdk.Lib.Lockstep
import OnvifSdk.StringCopies

namespace OnvifSdk.StaleOutput

open Lib Program Gsoap

/-- The outcomes of two runs that were answered alike and began with different outputs. -/
structure Fresh {α : Type} (zero : α) (r r' : Outcome (ℤ × α)) : Prop where
  same : r = r'
  cleared : ∀ n out, r = .ok (n, out) → n ≠ 0 → out = zero

section Buffer

variable {b : Build} {ep token username password src : Ptr CStr} {size : UInt32}
  {mediaUri : Ptr TtMediaUri} {m m' out : List UInt8} {n : ℤ} {t : Trace}

/-- Two states of the memory around an output buffer of `size` bytes. -/
structure SameAround (size : UInt32) (m m' : List UInt8) : Prop where
  length : m.length = m'.length
  beyond : m.drop size.toNat = m'.drop size.toNat

def cleared (size : UInt32) (m : List UInt8) : List UInt8 :=
  List.replicate size.toNat 0 ++ m.drop size.toNat

theorem SameAround.memset_eq (h : SameAround size m m') :
    memset m 0 size.toNat = memset m' 0 size.toNat := by
  rw [memset, memset, h.length, h.beyond]

theorem cleared_of_memset (h : Runs (S := gsoap) (lift (memset m 0 size.toNat)) t (.ok out)) :
    out = cleared size m := by
  rw [memset] at h
  split_ifs at h
  · exact (Except.ok.inj (runs_ret.mp h).2)
  · cases (runs_stop.mp h).2

theorem soapExit_returns {α : Type} {soap : Ptr Soap} {a a' : α}
    (h : Runs (soapExit soap a) t (.ok a')) : a' = a := by
  cases soap with
  | none => exact Except.ok.inj (runs_ret.mp h).2
  | some c => exact Except.ok.inj (soapExit_runs.mp h).2

theorem storeUri_fails (h : Runs (storeUri mediaUri m size) t (.ok (n, out))) (hn : n ≠ 0) :
    out = m := by
  unfold storeUri at h
  split at h
  · cases (runs_ret.mp h).2
    rfl
  · split_ifs at h
    · obtain ⟨uri, _, _, _, _, h⟩ := h.of_bind
      cases (runs_ret.mp h).2
      exact absurd rfl hn
    · cases (runs_ret.mp h).2
      rfl

theorem uriGetter_fails {ρ : Type} {new : Prog (Ptr Soap)} {call : Ptr Soap → Prog (ℤ × Ptr Soap × ρ)}
    {dump : ρ → Dump} {stored : ρ → Ptr TtMediaUri}
    (h : Runs (do
      let uri ← lift (memset m 0 size.toNat)
      let soap ← new
      let (result, soap, rep) ← call soap
      let failed ← soapCheckError result soap
      match failed with
      | some result => soapExit soap (result, uri)
      | none => do
        runDump (dump rep)
        let (result, uri) ← storeUri (stored rep) uri size
        soapExit soap (result, uri)) t (.ok (n, out))) (hn : n ≠ 0) : out = cleared size m := by
  obtain ⟨uri, _, _, _, hset, h⟩ := h.of_bind
  obtain ⟨_, _, _, _, _, h⟩ := h.of_bind
  obtain ⟨⟨result, soap, rep⟩, _, _, _, _, h⟩ := h.of_bind
  obtain ⟨failed, _, _, _, _, h⟩ := h.of_bind
  rw [← cleared_of_memset hset]
  cases failed with
  | some e => exact (Prod.mk.inj (soapExit_returns h)).2
  | none =>
    obtain ⟨_, _, _, _, _, h⟩ := h.of_bind
    obtain ⟨⟨n', uri'⟩, _, _, _, hstore, h⟩ := h.of_bind
    obtain ⟨rfl, rfl⟩ := Prod.mk.inj (soapExit_returns h)
    exact storeUri_fails hstore hn

theorem onvifGetStreamUri_congr (h : SameAround size m m') :
    onvifGetStreamUri b ep token (some m) size username password =
      onvifGetStreamUri b ep token (some m') size username password := by
  simp only [onvifGetStreamUri, soapAssert_some, deref_some, ret_bind, h.memset_eq]

theorem onvifGetStreamUri_fails
    (h : Runs (onvifGetStreamUri b ep token (some m) size username password) t (.ok (n, out)))
    (hn : n ≠ 0) : out = cleared size m := by
  obtain ⟨_, _, _, _, _, h⟩ := h.of_bind
  simp only [soapAssert_some, deref_some, ret_bind] at h
  exact uriGetter_fails h hn

theorem onvifGetSnapshotUri_congr (h : SameAround size m m') :
    onvifGetSnapshotUri b ep token (some m) size username password =
      onvifGetSnapshotUri b ep token (some m') size username password := by
  simp only [onvifGetSnapshotUri, soapAssert_some, deref_some, ret_bind, h.memset_eq]

theorem onvifGetSnapshotUri_fails
    (h : Runs (onvifGetSnapshotUri b ep token (some m) size username password) t (.ok (n, out)))
    (hn : n ≠ 0) : out = cleared size m := by
  obtain ⟨_, _, _, _, _, h⟩ := h.of_bind
  simp only [soapAssert_some, deref_some, ret_bind] at h
  exact uriGetter_fails h hn

theorem onvifMakeUriWithAuth_congr (h : SameAround size m m') :
    onvifMakeUriWithAuth b src username password (some m) size =
      onvifMakeUriWithAuth b src username password (some m') size := by
  simp only [onvifMakeUriWithAuth, soapAssert_some, deref_some, ret_bind, h.memset_eq]

theorem onvifMakeUriWithAuth_fails
    (h : Runs (onvifMakeUriWithAuth b src username password (some m) size) t (.ok (n, out)))
    (hn : n ≠ 0) : out = cleared size m := by
  obtain ⟨_, _, _, _, _, h⟩ := h.of_bind
  obtain ⟨_, _, _, _, _, h⟩ := h.of_bind
  obtain ⟨_, _, _, _, _, h⟩ := h.of_bind
  simp only [soapAssert_some, deref_some, ret_bind] at h
  obtain ⟨uri, _, _, _, hset, h⟩ := h.of_bind
  obtain ⟨src, _, _, _, _, h⟩ := h.of_bind
  obtain ⟨user, _, _, _, _, h⟩ := h.of_bind
  obtain ⟨pass, _, _, _, _, h⟩ := h.of_bind
  rw [← cleared_of_memset hset]
  split_ifs at h
  · cases (runs_ret.mp h).2
    rfl
  · obtain ⟨_, _, _, _, _, h⟩ := h.of_bind
    cases (runs_ret.mp h).2
    exact absurd rfl hn
  · split at h
    · cases (runs_ret.mp h).2
      rfl
    · obtain ⟨_, _, _, _, _, h⟩ := h.of_bind
      obtain ⟨_, _, _, _, _, h⟩ := h.of_bind
      obtain ⟨_, _, _, _, _, h⟩ := h.of_bind
      obtain ⟨_, _, _, _, _, h⟩ := h.of_bind
      cases (runs_ret.mp h).2
      exact absurd rfl hn

end Buffer

section Capabilities

variable {b : Build} {ep username password : Ptr CStr} {capa capa' : TagCapabilities} {t : Trace}
  {r : Outcome (ℤ × Ptr TagCapabilities)}

def noCapabilities : TagCapabilities := ⟨.zero _, .zero _⟩

theorem onvifGetCapabilities_lockstep (capa capa' : TagCapabilities) :
    Lockstep (fun x y => x.1 = y.1) (onvifGetCapabilities b ep (some capa) username password)
      (onvifGetCapabilities b ep (some capa') username password) := by
  have hexit (soap : Ptr Soap) (n : ℤ) (out out' : Ptr TagCapabilities) :
      Lockstep (S := gsoap) (fun x y => x.1 = y.1) (soapExit soap (n, out)) (soapExit soap (n, out')) := by
    cases soap with
    | none => exact .ret rfl
    | some c => exact .op _ fun _ => .ret rfl
  refine .bind_same _ fun _ => .bind_same _ fun _ => .bind_same _ fun soap => .bind_same _ ?_
  rintro ⟨result, soap, rep⟩
  apply Lockstep.bind_same
  intro failed
  cases failed with
  | some result => exact hexit soap result _ _
  | none => exact .bind_same _ fun _ => hexit soap result _ _

theorem onvifGetCapabilities_outcome
    (h : Runs (onvifGetCapabilities b ep (some capa) username password) t r) :
    ((∃ e, r = .error e) ∧ exchanges .getCapabilities t = []) ∨
      ∃ x : Exchange TdsGetCapabilitiesResponse, exchanges .getCapabilities t = [({}, x)] ∧
        ((x.Accepted ∧ r = .ok (0, some (tagCapabilities (x.reply {}).rep))) ∨
          (¬ x.Accepted ∧ ∃ n, n ≠ 0 ∧ r = .ok (n, some capa))) := by
  cases b with
  | debug => exact StringCopies.onvifGetCapabilities_outcome h
  | ndebug =>
    obtain ⟨rfl, rfl⟩ := runs_stop.mp h
    exact .inl ⟨⟨_, rfl⟩, rfl⟩

def Refused (t : Trace) : Prop := ∃ y ∈ exchanges .getCapabilities t, ¬ y.2.Accepted

theorem refused_iff {x : Exchange TdsGetCapabilitiesResponse}
    (h : exchanges .getCapabilities t = [({}, x)]) : Refused t ↔ ¬ x.Accepted := by
  rw [Refused, h]
  simp

theorem onvifGetCapabilities_fresh_iff
    (h : Runs (onvifGetCapabilities b ep (some capa) username password) t r) :
    ∃ r', Runs (onvifGetCapabilities b ep (some capa') username password) t r' ∧
      (Fresh (some noCapabilities) r r' ↔
        (Refused t → capa = noCapabilities ∧ capa' = noCapabilities)) := by
  obtain ⟨r', h', hrel⟩ := (onvifGetCapabilities_lockstep capa capa').runs h
  refine ⟨r', h', ?_⟩
  rcases onvifGetCapabilities_outcome h with ⟨⟨e, rfl⟩, hnone⟩ | ⟨x, hx, hcases⟩
  · have hr' : r' = .error e := by
      cases r' with
      | error e' => exact congrArg _ hrel.symm
      | ok a => exact hrel.elim
    have hrefused : ¬ Refused t := by
      rw [Refused, hnone]
      simp
    exact iff_of_true ⟨hr'.symm, by simp⟩ fun hr => absurd hr hrefused
  rcases onvifGetCapabilities_outcome h' with ⟨_, hnone⟩ | ⟨x', hx', hcases'⟩
  · rw [hx] at hnone
    cases hnone
  obtain rfl : x = x' := by
    rw [hx] at hx'
    simpa using hx'
  rw [refused_iff hx]
  -- both runs were answered by the same exchange, so they succeed or fail together
  rcases hcases with ⟨ha, rfl⟩ | ⟨ha, n, hn, rfl⟩ <;> rcases hcases' with ⟨ha', rfl⟩ | ⟨ha', n', hn', rfl⟩
  · refine iff_of_true ⟨rfl, ?_⟩ fun hna => absurd ha hna
    intro n out hr hn
    cases hr
    exact absurd rfl hn
  · exact absurd ha ha'
  · exact absurd ha' ha
  · obtain rfl : n = n' := hrel
    constructor
    · rintro ⟨hsame, hcleared⟩ -
      obtain rfl : capa = capa' := by simpa using hsame
      obtain rfl := Option.some.inj (hcleared n _ rfl hn)
      exact ⟨rfl, rfl⟩
    · intro hzero
      obtain ⟨rfl, rfl⟩ := hzero ha
      refine ⟨rfl, ?_⟩
      intro n out hr _
      cases hr
      rfl

end Capabilities

/-- Where no output depends on what was in it before: everywhere, but for a failed
`ONVIF_GetCapabilities`, which leaves its structure as it was. -/
theorem outputs_fresh_iff (b : Build) (ep token username password src : Ptr CStr) (size : UInt32)
    (t : Trace) :
    (∀ capa capa' r, Runs (onvifGetCapabilities b ep (some capa) username password) t r →
      ∃ r', Runs (onvifGetCapabilities b ep (some capa') username password) t r' ∧
        (Fresh (some noCapabilities) r r' ↔
          (Refused t → capa = noCapabilities ∧ capa' = noCapabilities))) ∧
    ∀ m m', SameAround size m m' →
      (∀ r, Runs (onvifGetStreamUri b ep token (some m) size username password) t r →
        ∃ r', Runs (onvifGetStreamUri b ep token (some m') size username password) t r' ∧
          Fresh (cleared size m) r r') ∧
      (∀ r, Runs (onvifGetSnapshotUri b ep token (some m) size username password) t r →
        ∃ r', Runs (onvifGetSnapshotUri b ep token (some m') size username password) t r' ∧
          Fresh (cleared size m) r r') ∧
      (∀ r, Runs (onvifMakeUriWithAuth b src username password (some m) size) t r →
        ∃ r', Runs (onvifMakeUriWithAuth b src username password (some m') size) t r' ∧
          Fresh (cleared size m) r r') := by
  refine ⟨fun capa capa' r h => onvifGetCapabilities_fresh_iff h, fun m m' hm => ⟨?_, ?_, ?_⟩⟩
  · intro r h
    rw [← onvifGetStreamUri_congr hm]
    refine ⟨r, h, rfl, ?_⟩
    rintro n out rfl hn
    exact onvifGetStreamUri_fails h hn
  · intro r h
    rw [← onvifGetSnapshotUri_congr hm]
    refine ⟨r, h, rfl, ?_⟩
    rintro n out rfl hn
    exact onvifGetSnapshotUri_fails h hn
  · intro r h
    rw [← onvifMakeUriWithAuth_congr hm]
    refine ⟨r, h, rfl, ?_⟩
    rintro n out rfl hn
    exact onvifMakeUriWithAuth_fails h hn

def previous : TagCapabilities := tagCapabilities ⟨some { media := some ⟨media⟩ }⟩

def used : List UInt8 := List.replicate 16 65

def unused : List UInt8 := List.replicate 16 0

theorem used_sameAround : SameAround 16 used unused := ⟨rfl, rfl⟩

open StringCopies in
theorem outputs_fresh_when_answered :
    (∃ t r r', Runs (onvifGetCapabilities .debug media (some previous) (some admin) (some admin)) t r ∧
      Runs (onvifGetCapabilities .debug media (some noCapabilities) (some admin) (some admin)) t r' ∧
      Fresh (some noCapabilities) r r') ∧
    (∃ t r r', Runs (onvifGetStreamUri .debug media none (some used) 16 (some admin) (some admin)) t r ∧
      Runs (onvifGetStreamUri .debug media none (some unused) 16 (some admin) (some admin)) t r' ∧
      Fresh unused r r') ∧
    (∃ t r r', Runs (onvifGetSnapshotUri .debug media none (some used) 16 (some admin) (some admin)) t r ∧
      Runs (onvifGetSnapshotUri .debug media none (some unused) 16 (some admin) (some admin)) t r' ∧
      Fresh unused r r') ∧
    ∃ t r r', Runs (onvifMakeUriWithAuth .debug media (some admin) (some admin) (some used) 16) t r ∧
      Runs (onvifMakeUriWithAuth .debug media (some admin) (some admin) (some unused) 16) t r' ∧
      Fresh unused r r' := by
  refine ⟨?_, ?_, ?_, ?_⟩
  · have hrun := briefly_runs (onvifGetCapabilities .debug media (some previous) (some admin) (some admin))
    obtain ⟨r', h', hiff⟩ := (outputs_fresh_iff .debug media none (some admin) (some admin) none 16 _).1
      previous noCapabilities _ hrun
    refine ⟨_, _, r', hrun, h', hiff.mpr ?_⟩
    rintro ⟨y, hy, hna⟩
    obtain rfl := List.mem_singleton.mp hy
    exact absurd ⟨rfl, rfl⟩ hna
  · have hrun := briefly_runs (onvifGetStreamUri .debug media none (some used) 16 (some admin) (some admin))
    obtain ⟨r', h', hfresh⟩ := ((outputs_fresh_iff .debug media none (some admin) (some admin) none 16 _).2
      used unused used_sameAround).1 _ hrun
    exact ⟨_, _, r', hrun, h', hfresh⟩
  · have hrun := briefly_runs (onvifGetSnapshotUri .debug media none (some used) 16 (some admin) (some admin))
    obtain ⟨r', h', hfresh⟩ := ((outputs_fresh_iff .debug media none (some admin) (some admin) none 16 _).2
      used unused used_sameAround).2.1 _ hrun
    exact ⟨_, _, r', hrun, h', hfresh⟩
  · have hrun := briefly_runs (onvifMakeUriWithAuth .debug media (some admin) (some admin) (some used) 16)
    obtain ⟨r', h', hfresh⟩ := ((outputs_fresh_iff .debug none none (some admin) (some admin) media 16 _).2
      used unused used_sameAround).2.2 _ hrun
    exact ⟨_, _, r', hrun, h', hfresh⟩

def unansweredRun (capa : TagCapabilities) : Trace × Outcome (ℤ × Ptr TagCapabilities) :=
  onHost (fun s _ _ _ => unreachable s) []
    (onvifGetCapabilities .debug media (some capa) (some admin) (some admin))

theorem unansweredRun_runs (capa : TagCapabilities) :
    Runs (onvifGetCapabilities .debug media (some capa) (some admin) (some admin))
      (unansweredRun capa).1 (unansweredRun capa).2 := onHost_runs _ _ _

theorem onvifGetCapabilities_keeps_previous_address : ∃ t n, n ≠ 0 ∧
    Runs (onvifGetCapabilities .debug media (some previous) (some admin) (some admin)) t
      (.ok (n, some previous)) ∧
    Runs (onvifGetCapabilities .debug media (some noCapabilities) (some admin) (some admin)) t
      (.ok (n, some noCapabilities)) ∧
    some previous.mediaXAddr.str = media ∧ noCapabilities.mediaXAddr.str.bytes = [] :=
  ⟨(unansweredRun previous).1, soapTcpError, by decide, unansweredRun_runs previous,
    unansweredRun_runs noCapabilities, by decide +kernel, CharArray.zero_str _⟩

end OnvifSdk.StaleOutput
