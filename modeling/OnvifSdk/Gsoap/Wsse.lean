import OnvifSdk.Gsoap.Context

namespace OnvifSdk.Gsoap

open OnvifSdk.Lib Program

def soapBase64o : List UInt8 :=
  utf8 "ABCDEFGHIJKLMNOPQRSTUVWXYZabcdefghijklmnopqrstuvwxyz0123456789+/"

def base64Digit (m : ℕ) : UInt8 := soapBase64o.getD (m % 64) 65

def base64Pad : UInt8 := 61

def soapS2base64 : List UInt8 → List UInt8
  | [] => []
  | [a] =>
    let m := a.toNat * 65536
    [base64Digit (m / 262144), base64Digit (m / 4096), base64Pad, base64Pad]
  | [a, b] =>
    let m := a.toNat * 65536 + b.toNat * 256
    [base64Digit (m / 262144), base64Digit (m / 4096), base64Digit (m / 64), base64Pad]
  | a :: b :: c :: s =>
    let m := a.toNat * 65536 + b.toNat * 256 + c.toNat
    base64Digit (m / 262144) :: base64Digit (m / 4096) :: base64Digit (m / 64) :: base64Digit m ::
      soapS2base64 s

theorem base64Digit_ne_zero (m : ℕ) : base64Digit m ≠ 0 := by
  have table : ∀ i < 64, soapBase64o.getD i 65 ≠ 0 := by decide +kernel
  exact table (m % 64) (Nat.mod_lt m (by omega))

theorem soapS2base64_nul_free (s : List UInt8) : 0 ∉ soapS2base64 s := by
  have hp : (0 : UInt8) ≠ base64Pad := by decide
  induction s using soapS2base64.induct with
  | case1 => simp [soapS2base64]
  | case2 a => simp [soapS2base64, (base64Digit_ne_zero _).symm, hp]
  | case3 a b => simp [soapS2base64, (base64Digit_ne_zero _).symm, hp]
  | case4 a b c s ih => simp [soapS2base64, (base64Digit_ne_zero _).symm, ih]

def base64 (s : List UInt8) : CStr := ⟨soapS2base64 s, soapS2base64_nul_free s⟩

def wssePasswordTextURI : CStr := .lit
  "http://docs.oasis-open.org/wss/2004/01/oasis-200401-wss-username-token-profile-1.0#PasswordText"

def wssePasswordDigestURI : CStr := .lit
  "http://docs.oasis-open.org/wss/2004/01/oasis-200401-wss-username-token-profile-1.0#PasswordDigest"

def wsseBase64BinaryURI : CStr := .lit
  "http://docs.oasis-open.org/wss/2004/01/oasis-200401-wss-soap-message-security-1.0#Base64Binary"

def eom (soap : Soap) (found : Bool) : Soap := if found then soap else { soap with error := soapEom }

def soapMalloc (soap : Soap) (n : Size) : Prog (Bool × Soap) := do
  let found ← perform (S := gsoap) (.soapMalloc n)
  return (found, eom soap found)

def soapStrdup (soap : Soap) : Ptr CStr → Prog (Ptr CStr × Soap)
  | none => .ret (none, soap)
  | some s => do
    let (found, soap) ← soapMalloc soap (.bytes (s.length + 1))
    return (if found then some s else none, soap)

def soapS2base64New (soap : Soap) (s : List UInt8) : Prog (Ptr CStr × Soap) := do
  let (found, soap) ← soapMalloc soap (.bytes ((s.length + 2) / 3 * 4 + 1))
  return (if found then some (base64 s) else none, soap)

def soapHeader (soap : Soap) : Prog Soap :=
  match soap.header with
  | some _ => .ret soap
  | none => do
    let (found, soap) ← soapMalloc soap (.sizeof .soapEnvHeader)
    return { soap with header := if found then some {} else none }

def Soap.setSecurity (soap : Soap) (s : Ptr WsseSecurity) : Soap :=
  { soap with header := soap.header.map fun h => { h with wsseSecurity := s } }

-- The pointer returned is into `soap->header`, so only whether it is NULL is handed on.
def soapWsseAddSecurity (soap : Soap) : Prog (Bool × Soap) := do
  let soap ← soapHeader soap
  let header ← deref soap.header
  match header.wsseSecurity with
  | some _ => .ret (true, soap)
  | none =>
    let (found, soap) ← soapMalloc soap (.sizeof .wsseSecurity)
    return (found, soap.setSecurity (if found then some {} else none))

def Soap.security (soap : Soap) : Ptr WsseSecurity := soap.header.bind (·.wsseSecurity)

def Soap.setToken (soap : Soap) (t : Ptr WsseUsernameToken) : Soap :=
  soap.setSecurity (soap.security.map fun s => { s with usernameToken := t })

def soapWsseNewUsernameToken (soap : Soap) (security : WsseSecurity) : Prog (Bool × Soap) :=
  match security.usernameToken with
  | some _ => .ret (true, soap)
  | none => soapMalloc soap (.sizeof .wsseUsernameToken)

def soapWsseAddUsernameTokenText (soap : Soap) (id username password : Ptr CStr) :
    Prog (ℤ × Soap) := do
  let (_, soap) ← soapWsseAddSecurity soap
  let security ← deref soap.security
  let (found, soap) ← soapWsseNewUsernameToken soap security
  if !found then .ret (soapEom, soap)
  else do
    let (id, soap) ← soapStrdup soap id
    let (username, soap) ← soapStrdup soap username
    let token : WsseUsernameToken := { wsuId := id, username := username }
    match password with
    | none => .ret (soapOk, soap.setToken (some token))
    | some password => do
      let (found, soap) ← soapMalloc soap (.sizeof .wssePassword)
      if !found then .ret (soapEom, soap.setToken (some token))
      else do
        let (item, soap) ← soapStrdup soap (some password)
        let password : WssePassword := { type := some wssePasswordTextURI, item := item }
        .ret (soapOk, soap.setToken (some { token with password := some password }))

def Soap.raised (soap : Soap) (error : ℤ) : Soap :=
  if error = soapOk then soap else { soap with error := error }

/-- `soap_wsse_add_UsernameTokenDigest`. Its local `security` is the pointer of the first
`soap_wsse_add_Security`, NULL when that one could not allocate. -/
def soapWsseAddUsernameTokenDigest (soap : Soap) (id username password : Ptr CStr) :
    Prog (ℤ × Soap) := do
  let (security, soap) ← soapWsseAddSecurity soap
  let created ← perform (S := gsoap) .soapDateTime2s
  let nonce ← perform (S := gsoap) .soapWsseRandNonce
  let (nonceBase64, soap) ← soapS2base64New soap nonce.toList
  let password ← deref password
  let (ha, error) ← perform (S := gsoap) (.calcDigest created nonce password)
  let (_, soap) ←
    soapWsseAddUsernameTokenText (soap.raised error) id username (some (base64 ha.toList))
  let security ← deref (if security then soap.security else none)
  let token ← deref security.usernameToken
  let password ← deref token.password
  let token := { token with
    password := some { password with type := some wssePasswordDigestURI }, salt := none, iteration := none }
  let (found, soap) ← soapMalloc soap (.sizeof .wsseEncodedString)
  if !found then .ret (soapEom, soap.setToken (some { token with nonce := none }))
  else do
    let nonce : WsseEncodedString := { item := nonceBase64, encodingType := some wsseBase64BinaryURI }
    let (created, soap) ← soapStrdup soap (some created)
    .ret (soapOk, soap.setToken (some { token with nonce := some nonce, wsuCreated := created }))

end OnvifSdk.Gsoap
