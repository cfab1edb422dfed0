import OnvifSdk.Gsoap.Base64
import OnvifSdk.Gsoap.DateTime
import OnvifSdk.Gsoap.Endpoint

namespace OnvifSdk.Gsoap

open OnvifSdk.Lib Program

def soapFault : ℤ := 12

def wsseClkskew : ℤ := 300
def wsseNoncetime : ℤ := wsseClkskew + 240

def wsseHexBinaryURI : CStr := .lit
  "http://docs.oasis-open.org/wss/2004/01/oasis-200401-wss-soap-message-security-1.0#HexBinary"

/-- `struct soap_wsse_session`, without the link. -/
structure Session where
  expired : ℤ
  hash : SmdSha1
  nonce : CStr
  deriving DecidableEq

/-- What a server does outside its own context while it checks a password. `stack` is what stands in
an array that has not been written yet; `push` makes a session the first of the list. The time read
at the start goes with it for the sake of the statements alone. -/
inductive ServerOp
  | time
  | soapMalloc (n : ℕ)
  | stack
  | lock
  | sessions
  | unlink (session : Session)
  | mallocSession (n : ℕ)
  | push (session : Session) (now : ℤ)
  | unlock

@[reducible] def ServerOp.Ans : ServerOp → Type
  | time => ℤ
  | soapMalloc _ => Bool
  | stack => SmdSha1
  | lock => Unit
  | sessions => List Session
  | unlink _ => Unit
  | mallocSession _ => Bool
  | push _ _ => Unit
  | unlock => Unit

abbrev server : Signature := ⟨ServerOp, ServerOp.Ans⟩

structure Platform where
  sha1 : List UInt8 → SmdSha1
  strict : Bool
  mktime : Tm → ℤ

inductive WsseFaultcode
  | unsupportedSecurityToken
  | unsupportedAlgorithm
  | invalidSecurity
  | invalidSecurityToken
  | failedAuthentication
  | failedCheck
  | securityTokenUnavailable
  deriving DecidableEq

structure SoapFault where
  subcode : WsseFaultcode
  string : CStr
  detail : Ptr CStr
  deriving DecidableEq

structure Verdict where
  status : ℤ
  soap : Soap
  fault : Option SoapFault := none
  deriving DecidableEq

def faultString : WsseFaultcode → CStr
  | .unsupportedSecurityToken => .lit "An unsupported token was provided"
  | .unsupportedAlgorithm => .lit "An unsupported signature or encryption algorithm was used"
  | .invalidSecurity => .lit "An error was discovered processing the <wsse:Security> header"
  | .invalidSecurityToken => .lit "An invalid security token was provided"
  | .failedAuthentication => .lit "The security token could not be authenticated or authorized"
  | .failedCheck => .lit "The signature or decryption was invalid"
  | .securityTokenUnavailable => .lit "Referenced security token could not be retrieved"

def soapWsseDeleteSecurity (soap : Soap) : Soap := soap.setSecurity none

def soapWsseFault (soap : Soap) (fault : WsseFaultcode) (detail : Ptr CStr) : Verdict where
  status := soapFault
  soap := { soapWsseDeleteSecurity soap with error := soapFault }
  fault := some ⟨fault, faultString fault, detail⟩

def soapWsseUsernameToken (soap : Soap) (id : Ptr CStr) : Ptr WsseUsernameToken :=
  (soap.security.bind (·.usernameToken)).filter fun token => id.all fun _ => token.wsuId = id

def soapWsseGetUsername (soap : Soap) : Ptr CStr × Verdict :=
  match soapWsseUsernameToken soap none with
  | some token => (token.username, ⟨soapOk, soap, none⟩)
  | none => (none, soapWsseFault soap .failedAuthentication (some (.lit "Username authentication required")))

def purge (now : ℤ) : List Session → Program server Unit
  | [] => .ret ()
  | session :: sessions =>
    if session.expired < now then do
      perform (S := server) (.unlink session)
      purge now sessions
    else purge now sessions

def soapWsseSessionCleanup : Program server Unit := do
  let now ← perform (S := server) .time
  perform (S := server) .lock
  let sessions ← perform (S := server) .sessions
  purge now sessions
  perform (S := server) .unlock

-- The nonce is compared behind an equal hash only, so a NULL nonce is followed there alone.
def findSession (hash : SmdSha1) (nonce : Ptr CStr) : List Session → Outcome (Option Session)
  | [] => .ok none
  | session :: sessions =>
    if session.hash = hash then
      match nonce with
      | none => .error .memory
      | some n => if session.nonce = n then .ok (some session) else findSession hash nonce sessions
    else findSession hash nonce sessions

def soapWsseSessionAdd (session : Session) (now : ℤ) : Program server Unit := do
  let found ← perform (S := server) (.mallocSession session.nonce.length)
  if found then perform (S := server) (.push session now) else .ret ()

/-- The part of `soap_wsse_session_verify` under the lock: whether the session was there. -/
def soapWsseSessionUpdate (hash : SmdSha1) (expired now : ℤ) (nonce : Ptr CStr) : Program server Bool := do
  perform (S := server) .lock
  let sessions ← perform (S := server) .sessions
  let session ← lift (findSession hash nonce sessions)
  match session with
  | some _ => do
    perform (S := server) .unlock
    return true
  | none => do
    let nonce ← deref nonce
    soapWsseSessionAdd ⟨expired, hash, nonce⟩ now
    perform (S := server) .unlock
    return false

def soapWsseSessionVerify (P : Platform) (soap : Soap) (hash : SmdSha1) (created nonce : Ptr CStr) :
    Program server Verdict := do
  let now ← perform (S := server) .time
  let (error, expired) ← lift (soapS2dateTime P.strict P.mktime soap.error created)
  let soap := { soap with error := error }
  if now + wsseClkskew < expired then
    return soapWsseFault soap .failedAuthentication (some (.lit "Authorization request in future"))
  else
    let expired := expired + wsseNoncetime
    if expired ≤ now then
      return soapWsseFault soap .failedAuthentication (some (.lit "Authentication expired"))
    else do
      if now % 10 = 0 then soapWsseSessionCleanup else .ret ()
      let replayed ← soapWsseSessionUpdate hash expired now nonce
      if replayed then return soapWsseFault soap .failedAuthentication none
      else return ⟨soapOk, soap, none⟩

def Decoded.leave (d : Decoded) (soap : Soap) : List UInt8 × Soap :=
  if d.valid then (d.bytes, soap) else ([], { soap with error := soapType })

/-- `soap_base642s` into new memory. Where there is none, the length stays unset and the digest
reads that many bytes from NULL. -/
def soapBase642sNew (soap : Soap) (s : Ptr CStr) : Program server (List UInt8 × Soap) :=
  match s with
  | none => .ret ([], soap)
  | some s =>
    if s.bytes = [] then .ret ([], soap)
    else do
      let found ← perform (S := server) (.soapMalloc (base64Room s))
      if !found then .stop .memory else return (soapBase642s (base64Room s) s).leave soap

def hexBytes : List UInt8 → List UInt8
  | a :: b :: s => (hexDigit a * 16 + hexDigit b) :: hexBytes s
  | _ => []

def soapHex2sNew (soap : Soap) (s : Ptr CStr) : Program server (List UInt8 × Soap) :=
  match s with
  | none => .ret ([], soap)
  | some s =>
    if s.bytes = [] then .ret ([], soap)
    else do
      let found ← perform (S := server) (.soapMalloc (s.length / 2 + 1))
      if !found then .stop .memory else return (hexBytes s.bytes, soap)

def decodeNonce (soap : Soap) (nonce : WsseEncodedString) : Program server (List UInt8 × Soap) :=
  if nonce.encodingType = some wsseHexBinaryURI then soapHex2sNew soap nonce.item
  else soapBase642sNew soap nonce.item

def calcDigest (P : Platform) (created : CStr) (nonce : List UInt8) (password : CStr) : SmdSha1 :=
  P.sha1 (nonce ++ created.bytes ++ password.bytes)

/-- `HA2` after `soap_base642s` has written to it. -/
def suppliedDigest (item : CStr) (stack : SmdSha1) : SmdSha1 :=
  let d := soapBase642s 20 item
  let stored := d.bytes ++ if d.valid ∧ d.bytes.length < 20 then [0] else []
  Vector.ofFn fun i => stored.getD i stack[i]

def soapWsseVerifyDigest (P : Platform) (soap : Soap) (item : CStr) (nonce : WsseEncodedString) (created : CStr)
    (password : CStr) : Program server Verdict :=
  if nonce.encodingType = none ∨ nonce.encodingType = some wsseBase64BinaryURI ∨
      nonce.encodingType = some wsseHexBinaryURI then do
    let (bytes, soap) ← decodeNonce soap nonce
    let ha1 := calcDigest P created bytes password
    let stack ← perform (S := server) .stack
    let soap := ((soapBase642s 20 item).leave soap).2
    if ha1 = suppliedDigest item stack then soapWsseSessionVerify P soap ha1 (some created) nonce.item
    else return soapWsseFault soap .failedAuthentication none
  else .ret (soapWsseFault soap .failedAuthentication none)

def soapWsseVerifyPassword (P : Platform) (soap : Soap) (password : CStr) : Program server Verdict :=
  let refused := soapWsseFault soap .failedAuthentication none
  match soapWsseUsernameToken soap none with
  | none => .ret refused
  | some token =>
    match token.password with
    | none => .ret refused
    | some supplied =>
      if supplied.type = some wssePasswordDigestURI then
        match token.nonce, token.wsuCreated with
        | some nonce, some created => do
          let item ← deref supplied.item
          if item.length = 28 then soapWsseVerifyDigest P soap item nonce created password
          else return refused
        | _, _ => .ret refused
      else if supplied.item = some password then .ret ⟨soapOk, soap, none⟩
      else .ret refused

end OnvifSdk.Gsoap
