import OnvifSdk.Gsoap.Wsse

namespace OnvifSdk

open Lib Program Gsoap

def soapSockTimeout : ℤ := 10

def onvifAddressSize : ℕ := 128

def onvifTokenSize : ℕ := 65

def onvifSoapMalloc (b : Build) (soap : Ptr Soap) (n : Size) : Prog (Bool × Ptr Soap) :=
  if n = .bytes 0 then .ret (false, soap)
  else do
    let p ← perform (S := gsoap) (.soapMalloc n)
    soapAssert b p
    if !p then .stop .memory else .ret (true, soap)

def onvifSoapNew (b : Build) (timeout : ℤ) : Prog (Ptr Soap) := do
  let soap ← soapAssertAssign b do
    let p ← perform (S := gsoap) .soapNew
    return if p then some ({} : Soap) else none
  let soap ← deref soap
  return some { soap with
    namespaces := true
    recvTimeout := timeout
    sendTimeout := timeout
    connectTimeout := timeout
    msgNosignal := true
    utfString := true }

def onvifSoapDelete (soap : Ptr Soap) : Prog Unit := do
  let _ ← deref soap
  perform (S := gsoap) .soapDelete

-- The code under the label EXIT of every function that owns a context.
def soapExit {α : Type} (soap : Ptr Soap) (result : α) : Prog α :=
  if soap.isSome then do
    onvifSoapDelete soap
    return result
  else .ret result

def onvifSetAuthInfo (b : Build) (soap : Ptr Soap) (username password : Ptr CStr) :
    Prog (ℤ × Ptr Soap) := do
  soapAssert b username.isSome
  soapAssert b password.isSome
  let soap ← deref soap
  let (result, soap) ← soapWsseAddUsernameTokenDigest soap none username password
  let failed ← soapCheckError result (some soap)
  return (failed.getD result, some soap)

def slashes : List UInt8 := utf8 "//"

def onvifMakeUriWithAuth (b : Build) (srcUri username password : Ptr CStr)
    (destUri : Ptr (List UInt8)) (sizeDestUri : UInt32) : Prog (ℤ × List UInt8) := do
  soapAssert b srcUri.isSome
  soapAssert b username.isSome
  soapAssert b password.isSome
  soapAssert b destUri.isSome
  let dest ← deref destUri
  let dest ← lift (memset dest 0 sizeDestUri.toNat)
  let src ← deref srcUri
  let user ← deref username
  let pass ← deref password
  -- the sum is a `size_t` cut to `unsigned int`
  let needBufSize : UInt32 := .ofNat (src.length + user.length + pass.length + 3)
  if sizeDestUri < needBufSize then .ret (-1, dest)
  else if user.length = 0 ∧ pass.length = 0 then do
    let dest ← lift (strcpy dest src)
    return (0, dest)
  else
    match strstr src.bytes slashes with
    | none => .ret (-1, dest)
    | some p => do
      let p := cstring (p.drop 2)
      let dest ← lift (write dest 0 (src.bytes.take (src.length - p.length)))
      let n ← lift (strlen dest)
      let dest ← lift (write dest n (user.bytes ++ colon :: pass.bytes ++ [atSign, 0]))
      let dest ← lift (strcat dest p)
      return (0, dest)

end OnvifSdk
