import OnvifSdk.Gsoap.Stub

namespace OnvifSdk.Gsoap

open OnvifSdk.Lib Program

structure Soap where
  error : ℤ := 0
  header : Ptr SoapEnvHeader := none
  namespaces : Bool := false
  recvTimeout : ℤ := 0
  sendTimeout : ℤ := 0
  connectTimeout : ℤ := 0
  msgNosignal : Bool := false
  utfString : Bool := false
  deriving DecidableEq

def soapOk : ℤ := 0
def soapEof : ℤ := -1
def soapSyntaxError : ℤ := 5
def soapEom : ℤ := 20
def soapTcpError : ℤ := 28

inductive Service
  | getCapabilities
  | getProfiles
  | getStreamUri
  | getSnapshotUri
  | getVideoEncoderConfigurationOptions
  | getVideoEncoderConfiguration
  | setVideoEncoderConfiguration
  deriving DecidableEq

namespace Service

@[reducible] def Req : Service → Type
  | getCapabilities => TdsGetCapabilities
  | getProfiles => TrtGetProfiles
  | getStreamUri => TrtGetStreamUri
  | getSnapshotUri => TrtGetSnapshotUri
  | getVideoEncoderConfigurationOptions => TrtGetVideoEncoderConfigurationOptions
  | getVideoEncoderConfiguration => TrtGetVideoEncoderConfiguration
  | setVideoEncoderConfiguration => TrtSetVideoEncoderConfiguration

@[reducible] def Rep : Service → Type
  | getCapabilities => TdsGetCapabilitiesResponse
  | getProfiles => TrtGetProfilesResponse
  | getStreamUri => TrtGetStreamUriResponse
  | getSnapshotUri => TrtGetSnapshotUriResponse
  | getVideoEncoderConfigurationOptions => TrtGetVideoEncoderConfigurationOptionsResponse
  | getVideoEncoderConfiguration => TrtGetVideoEncoderConfigurationResponse
  | setVideoEncoderConfiguration => TrtSetVideoEncoderConfigurationResponse

def zero : (s : Service) → s.Rep
  | getCapabilities => ({} : TdsGetCapabilitiesResponse)
  | getProfiles => ({} : TrtGetProfilesResponse)
  | getStreamUri => ({} : TrtGetStreamUriResponse)
  | getSnapshotUri => ({} : TrtGetSnapshotUriResponse)
  | getVideoEncoderConfigurationOptions => ({} : TrtGetVideoEncoderConfigurationOptionsResponse)
  | getVideoEncoderConfiguration => ({} : TrtGetVideoEncoderConfigurationResponse)
  | setVideoEncoderConfiguration => ({} : TrtSetVideoEncoderConfigurationResponse)

end Service

/-- How a receive ended: the value it returned, the `soap->error` it left, the header it stored if
it came that far, and what it had decoded by then. -/
structure Reply (ρ : Type) where
  status : ℤ
  error : ℤ
  header : Option (Ptr SoapEnvHeader) := none
  rep : ρ

def Reply.ok {ρ : Type} (x : Reply ρ) : Prop := x.status = soapOk ∧ x.error = soapOk

instance {ρ : Type} (x : Reply ρ) : Decidable x.ok := inferInstanceAs (Decidable (_ ∧ _))

inductive Exchange (ρ : Type)
  | unsent (error : ℤ) (h : error ≠ soapOk)
  | sent (reply : Reply ρ)

namespace Exchange

variable {ρ : Type}

def reply (z : ρ) : Exchange ρ → Reply ρ
  | .unsent e _ => ⟨e, e, none, z⟩
  | .sent r => r

def Transmitted : Exchange ρ → Prop
  | .unsent _ _ => False
  | .sent _ => True

def Accepted : Exchange ρ → Prop
  | .unsent _ _ => False
  | .sent r => r.ok

instance : (x : Exchange ρ) → Decidable x.Transmitted
  | .unsent _ _ => .isFalse id
  | .sent _ => .isTrue trivial

instance : (x : Exchange ρ) → Decidable x.Accepted
  | .unsent _ _ => .isFalse id
  | .sent r => inferInstanceAs (Decidable r.ok)

theorem accepted_iff (x : Exchange ρ) (z : ρ) : x.Accepted ↔ (x.reply z).ok := by
  cases x with
  | unsent e h =>
    simp only [Accepted, reply, Reply.ok, false_iff, not_and]
    exact fun he => absurd he h
  | sent r => rfl

theorem Accepted.transmitted {x : Exchange ρ} (h : x.Accepted) : x.Transmitted := by
  cases x with
  | unsent e he => exact h
  | sent r => trivial

end Exchange

inductive Record
  | soapEnvHeader
  | wsseSecurity
  | wsseUsernameToken
  | wssePassword
  | wsseEncodedString
  | wsddScopesType
  deriving DecidableEq

inductive Size
  | sizeof (r : Record)
  | bytes (n : ℕ)
  deriving DecidableEq

abbrev SmdSha1 := Vector UInt8 20
abbrev WsseNonce := Vector UInt8 20

-- `mallocTagProfiles` is the one call of `malloc`, and `report` is the closing message of a detection.
inductive Op
  | soapNew
  | soapMalloc (n : Size)
  | mallocTagProfiles (n : ℕ)
  | freeTagProfiles
  | soapDateTime2s
  | soapWsseRandNonce
  | calcDigest (created : CStr) (nonce : WsseNonce) (password : CStr)
  | soapWsaRandUuid
  | soapCall (s : Service) (soap : Soap) (endpoint : Ptr CStr) (req : s.Req)
  | soapSendProbe (soap : Soap) (endpoint : CStr) (req : WsddProbeType)
  | soapRecvProbeMatches (soap : Soap)
  | cb (probeMatch : WsddProbeMatchType)
  | report (count : ℤ)
  | soapDelete

@[reducible] def Op.Ans : Op → Type
  | soapNew => Bool
  | soapMalloc _ => Bool
  | mallocTagProfiles _ => Bool
  | freeTagProfiles => Unit
  | soapDateTime2s => CStr
  | soapWsseRandNonce => WsseNonce
  | calcDigest _ _ _ => SmdSha1 × ℤ
  | soapWsaRandUuid => Ptr CStr
  | soapCall s _ _ _ => Exchange s.Rep
  | soapSendProbe _ _ _ => ℤ
  | soapRecvProbeMatches _ => Reply WsddProbeMatches
  | cb _ => Unit
  | report _ => Unit
  | soapDelete => Unit

abbrev gsoap : Signature := ⟨Op, Op.Ans⟩

abbrev Prog (α : Type) := Program gsoap α

abbrev Trace := List (Event gsoap)

inductive Build
  | debug
  | ndebug
  deriving DecidableEq

def soapAssert (b : Build) (c : Bool) : Prog Unit :=
  match b with
  | .debug => require c
  | .ndebug => .ret ()

@[simp] theorem soapAssert_some {α : Type} (b : Build) (a : α) :
    soapAssert b (some a).isSome = .ret () := by
  cases b <;> rfl

/-- `SOAP_ASSERT(NULL != (p = e))` with `p` NULL before: without assertions `e` never runs. -/
def soapAssertAssign {α : Type} (b : Build) (e : Prog (Ptr α)) : Prog (Ptr α) :=
  match b with
  | .debug => do
    let p ← e
    require p.isSome
    return p
  | .ndebug => .ret none

def soapBegin (soap : Soap) : Soap := { soap with error := soapOk }

def Soap.received {ρ : Type} (soap : Soap) (x : Reply ρ) : Soap :=
  { soap with error := x.error, header := x.header.getD soap.header }

/-- `soap_call___X`: every return path of the send and of the receive hands back a status and
leaves one in the context. -/
def soapCall (s : Service) (soap : Ptr Soap) (endpoint : Ptr CStr) (req : s.Req) :
    Prog (ℤ × Ptr Soap × s.Rep) := do
  let soap ← deref soap
  let soap := soapBegin soap
  let x ← perform (S := gsoap) (.soapCall s soap endpoint req)
  let r := Exchange.reply s.zero x
  return (r.status, some (soap.received r), r.rep)

/-- `SOAP_CHECK_ERROR`: the result to leave with, or nothing when the function goes on. The
message that `soap_perror` prints is left out. -/
def soapCheckError (result : ℤ) (soap : Ptr Soap) : Prog (Option ℤ) := do
  let soap ← deref soap
  return if result ≠ soapOk then some result else if soap.error ≠ soapOk then some soap.error else none

end OnvifSdk.Gsoap
