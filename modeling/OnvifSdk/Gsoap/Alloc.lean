import OnvifSdk.Lib.Memory
import OnvifSdk.Gsoap.Context

namespace OnvifSdk.Gsoap.Alloc

open OnvifSdk.Lib Memory

def soapMoe : ℤ := 21
def soapCanary : ℕ := 0xC0DE

/-- What `soap_malloc` and its kin use of a context. -/
structure Arena where
  alist : ℕ := 0
  error : ℤ := 0
  httpContent : ℕ := 0
  action : ℕ := 0
  fault : ℕ := 0
  header : ℕ := 0
  bearer : ℕ := 0
  userid : ℕ := 0
  passwd : ℕ := 0
  authrealm : ℕ := 0
  deriving DecidableEq

/-- The size that is asked of `malloc`, less the two words at the end. -/
def blockSize (n : ℕ) : ℕ :=
  let n := (n + 2) % 2 ^ 64
  (n + ((2 ^ 64 - n) % 2 ^ 64 &&& 7)) % 2 ^ 64

-- The canary, the link and the size behind the bytes that are given out.
def stamp (h : Heap) (p n alist : ℕ) : Outcome Heap := do
  let h ← h.store (p + n - 2) (littleEndian 2 soapCanary)
  let h ← h.store (p + n) (littleEndian 8 alist)
  h.store (p + n + 8) (littleEndian 8 n)

def soapMalloc (soap : Arena) (h : Heap) (k place : ℕ) (fill : Content) : Outcome (ℕ × Arena × Heap) :=
  let n := blockSize k
  if (n + 16) % 2 ^ 64 < k then .ok (0, { soap with error := soapEom }, h)
  else
    match h.malloc ((n + 16) % 2 ^ 64) place fill with
    | none => .ok (0, { soap with error := soapEom }, h)
    | some (p, h) => do
      let h ← stamp h p n soap.alist
      return (p, { soap with alist := p + n }, h)

def below (a n : ℕ) : ℕ := (a + 2 ^ 64 - n) % 2 ^ 64

-- `q` is the place of a pointer: that of `soap->alist`, or one in memory.
def readSlot (soap : Arena) (h : Heap) : Option ℕ → Outcome ℕ
  | none => .ok soap.alist
  | some a => h.loadWord a

def writeSlot (soap : Arena) (h : Heap) (q : Option ℕ) (v : ℕ) : Outcome (Arena × Heap) :=
  match q with
  | none => .ok ({ soap with alist := v }, h)
  | some a => (h.store a (littleEndian 8 v)).map fun h => (soap, h)

/-- `soap_delete` with an empty `clist`. -/
def soapDelete (soap : Arena) : Arena := { soap with fault := 0, header := 0 }

def deallocOne (fuel : ℕ) (soap : Arena) (h : Heap) (p : ℕ) (q : Option ℕ) : Outcome (Arena × Heap) :=
  match fuel with
  | 0 => .error .exhausted
  | fuel + 1 => do
    let link ← readSlot soap h q
    if link = 0 then return (soapDelete soap, h)
    let canary ← h.loadHalf (below link 2)
    if canary ≠ soapCanary then return ({ soap with error := soapMoe }, h)
    let n ← h.loadWord (link + 8)
    if p = below link n then
      let next ← h.loadWord link
      let (soap, h) ← writeSlot soap h q next
      let h ← h.free p
      return (soap, h)
    deallocOne fuel soap h p (some link)

def Arena.forget (soap : Arena) : Arena :=
  { soap with
    httpContent := 0, action := 0, fault := 0, header := 0, bearer := 0, userid := 0, passwd := 0, authrealm := 0 }

def deallocAll (fuel : ℕ) (soap : Arena) (h : Heap) : Outcome (Arena × Heap) :=
  match fuel with
  | 0 => .error .exhausted
  | fuel + 1 => do
    let link := soap.alist
    if link = 0 then return (soap.forget, h)
    let canary ← h.loadHalf (below link 2)
    if canary ≠ soapCanary then return ({ soap with error := soapMoe }, h)
    let next ← h.loadWord link
    let n ← h.loadWord (link + 8)
    let h ← h.free (below link n)
    deallocAll fuel { soap with alist := next } h

def soapDealloc (fuel : ℕ) (soap : Arena) (h : Heap) (p : ℕ) : Outcome (Arena × Heap) :=
  if p ≠ 0 then deallocOne fuel soap h p none else deallocAll fuel soap h

-- The value says whether the block was found.
def unlinkLoop (fuel : ℕ) (soap : Arena) (h : Heap) (p : ℕ) (q : Option ℕ) : Outcome (Bool × Arena × Heap) :=
  match fuel with
  | 0 => .error .exhausted
  | fuel + 1 => do
    let link ← readSlot soap h q
    if link = 0 then return (false, soap, h)
    let n ← h.loadWord (link + 8)
    if p = below link n then
      let next ← h.loadWord link
      let (soap, h) ← writeSlot soap h q next
      return (true, soap, h)
    unlinkLoop fuel soap h p (some link)

def soapUnlink (fuel : ℕ) (soap : Arena) (h : Heap) (p : ℕ) : Outcome (Bool × Arena × Heap) :=
  if p ≠ 0 then unlinkLoop fuel soap h p none else .ok (false, soap, h)

-- The last slot of the chain, where no canary is damaged.
def lastSlot (fuel : ℕ) (soap : Arena) (h : Heap) (q : Option ℕ) : Outcome (Option (Option ℕ)) :=
  match fuel with
  | 0 => .error .exhausted
  | fuel + 1 => do
    let link ← readSlot soap h q
    if link = 0 then return some q
    let canary ← h.loadHalf (below link 2)
    if canary ≠ soapCanary then return none
    lastSlot fuel soap h (some link)

def soapDelegateDeletion (fuel : ℕ) (soap soapTo : Arena) (h : Heap) : Outcome (Arena × Arena × Heap) := do
  match ← lastSlot fuel soap h none with
  | none => return ({ soap with error := soapMoe }, soapTo, h)
  | some q =>
    let (soap, h) ← writeSlot soap h q soapTo.alist
    return ({ soap with alist := 0 }, { soapTo with alist := soap.alist }, h)

/-- `soap_destroy`, `soap_end` and `soap_done`, as far as they go over the blocks of the context. -/
def onvifSoapDeleteBlocks (fuel : ℕ) (soap : Arena) (h : Heap) : Outcome (Arena × Heap) := do
  let (soap, h) ← soapDealloc fuel (soapDelete soap) h 0
  return ({ soap with alist := 0 }, h)

end OnvifSdk.Gsoap.Alloc
