import OnvifSdk.Service

namespace OnvifSdk

open Lib Gsoap

/-- An environment in which nothing on the client's own host fails. `peer` answers the calls, and
the replies to a Probe are taken from a queue until the receive times out. -/
def host (peer : (s : Service) → Soap → Ptr CStr → s.Req → Exchange s.Rep) :
    List (Reply WsddProbeMatches) → (o : Op) → o.Ans × List (Reply WsddProbeMatches)
  | q, .soapNew => (true, q)
  | q, .soapMalloc _ => (true, q)
  | q, .mallocTagProfiles _ => (true, q)
  | q, .freeTagProfiles => ((), q)
  | q, .soapDateTime2s => (.lit "2020-01-01T00:00:00Z", q)
  | q, .soapWsseRandNonce => (Vector.replicate 20 0, q)
  | q, .calcDigest _ _ _ => ((Vector.replicate 20 0, soapOk), q)
  | q, .soapWsaRandUuid => (some (.lit "urn:uuid:00000000-0000-4000-8000-000000000000"), q)
  | q, .soapCall s soap endpoint req => (peer s soap endpoint req, q)
  | q, .soapSendProbe _ _ _ => (soapOk, q)
  | [], .soapRecvProbeMatches _ => (⟨soapEof, soapEof, none, {}⟩, [])
  | x :: q, .soapRecvProbeMatches _ => (x, q)
  | q, .cb _ => ((), q)
  | q, .report _ => ((), q)
  | q, .soapDelete => ((), q)

def unreachable (s : Service) : Exchange s.Rep := .unsent soapTcpError (by decide)

def onHost {α : Type} (peer : (s : Service) → Soap → Ptr CStr → s.Req → Exchange s.Rep)
    (q : List (Reply WsddProbeMatches)) (p : Prog α) : Trace × Outcome α :=
  let r := p.exec (S := gsoap) (host peer) q
  (r.1, r.2.1)

theorem onHost_runs {α : Type} (peer : (s : Service) → Soap → Ptr CStr → s.Req → Exchange s.Rep)
    (q : List (Reply WsddProbeMatches)) (p : Prog α) : p.Runs (onHost peer q p).1 (onHost peer q p).2 :=
  Program.exec_runs (S := gsoap) (host peer) p q

def media : Ptr CStr := some (.lit "http://192.168.0.2/onvif/media")

def admin : CStr := .lit "admin"

def resized (width height : ℤ) : TagVideoEncoderConfiguration where
  token := copied 64 (some (.lit "encoder_1"))
  width := width
  height := height
  terminated := copied_terminated 64 _

end OnvifSdk
