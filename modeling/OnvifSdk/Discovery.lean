import OnvifSdk.Comm
import OnvifSdk.Debug

namespace OnvifSdk

open Lib Program Gsoap

def soapTo : CStr := .lit "urn:schemas-xmlsoap-org:ws:2005:04:discovery"

def soapAction : CStr := .lit "http://schemas.xmlsoap.org/ws/2005/04/discovery/Probe"

def soapMcastAddr : CStr := .lit "soap.udp://239.255.255.250:3702"

def soapItem : CStr := .lit ""

def soapTypes : CStr := .lit "dn:NetworkVideoTransmitter"

def onvifInitHeader (b : Build) (soap : Ptr Soap) : Prog (Ptr Soap) := do
  soapAssert b soap.isSome
  let (_, soap) ← onvifSoapMalloc b soap (.sizeof .soapEnvHeader)
  let context ← deref soap
  let messageID ← perform (S := gsoap) .soapWsaRandUuid
  let soap := some (eom context messageID.isSome)
  let (wsaTo, soap) ← onvifSoapMalloc b soap (.bytes (soapTo.length + 1))
  let (wsaAction, soap) ← onvifSoapMalloc b soap (.bytes (soapAction.length + 1))
  let context ← deref soap
  return some { context with header := some {
    wsaMessageID := messageID
    wsaTo := if wsaTo then some soapTo else none
    wsaAction := if wsaAction then some soapAction else none } }

def onvifInitProbeType (b : Build) (soap : Ptr Soap) : Prog (WsddProbeType × Ptr Soap) := do
  soapAssert b soap.isSome
  let (_, soap) ← onvifSoapMalloc b soap (.sizeof .wsddScopesType)
  let (item, soap) ← onvifSoapMalloc b soap (.bytes (soapItem.length + 1))
  let (types, soap) ← onvifSoapMalloc b soap (.bytes (soapTypes.length + 1))
  let scope : WsddScopesType := { item := if item then some soapItem else none }
  return ({ types := if types then some soapTypes else none, scopes := some scope }, soap)

def soapSendProbe (soap : Ptr Soap) (endpoint : CStr) (req : WsddProbeType) : Prog (ℤ × Ptr Soap) := do
  let soap ← deref soap
  let soap := soapBegin soap
  let error ← perform (S := gsoap) (.soapSendProbe soap endpoint req)
  return (error, some { soap with error := error })

def soapRecvProbeMatches (soap : Ptr Soap) : Prog (ℤ × Ptr Soap × WsddProbeMatches) := do
  let soap ← deref soap
  let soap := soapBegin soap
  let x ← perform (S := gsoap) (.soapRecvProbeMatches soap)
  return (x.status, some (soap.received x), x.rep)

def callBack (cb : Bool) : List WsddProbeMatchType → Prog Unit
  | [] => .ret ()
  | probeMatch :: rest => do
    if cb then perform (S := gsoap) (.cb probeMatch)
    callBack cb rest

def detectStep (cb : Bool) (soap : Ptr Soap) (count : UInt32) : Prog (ℤ × Ptr Soap × UInt32) := do
  let (result, soap, rep) ← soapRecvProbeMatches soap
  let context ← deref soap
  if result = soapOk then
    -- a status of zero with an error set is only reported
    if context.error ≠ soapOk then .ret (result, soap, count)
    else do
      runDump (dumpWsddProbeMatches rep)
      match rep.wsddProbeMatches with
      | none => .ret (result, soap, count)
      | some probeMatches => do
        let count := count + .ofNat probeMatches.probeMatch.elems.length
        callBack cb probeMatches.probeMatch.elems
        return (result, soap, count)
  else .ret (result, soap, count)

/-- The receive loop. The `break` of the source leaves it where `result` would have ended it. -/
def detectLoop (cb : Bool) : ℕ → ℤ → Ptr Soap → UInt32 → Prog (Ptr Soap × UInt32)
  | fuel, result, soap, count =>
    if result = soapOk then
      match fuel with
      | 0 => .stop .exhausted
      | fuel + 1 => do
        let (result, soap, count) ← detectStep cb soap count
        detectLoop cb fuel result soap count
    else .ret (soap, count)

-- `cb` says whether a callback is given; `fuel` bounds the number of receives.
def onvifDetectDevice (b : Build) (fuel : ℕ) (cb : Bool) : Prog Unit := do
  let soap ← soapAssertAssign b (onvifSoapNew b soapSockTimeout)
  let soap ← onvifInitHeader b soap
  let (req, soap) ← onvifInitProbeType b soap
  let (result, soap) ← soapSendProbe soap soapMcastAddr req
  let (soap, count) ← detectLoop cb fuel result soap 0
  perform (S := gsoap) (.report count.toInt32.toInt)
  soapExit soap ()

end OnvifSdk
