import OnvifSdk.Lib.CString

namespace OnvifSdk.Lib

def continuation (n : ℕ) : UInt8 := UInt8.ofNat (128 + n % 64)

/-- The bytes of a code point in the scheme that goes on to 31 bits. -/
def encodeUtf8 (n : ℕ) : List UInt8 :=
  if n < 0x80 then [UInt8.ofNat n]
  else if n < 0x800 then [UInt8.ofNat (192 + n / 64 % 32), continuation n]
  else if n < 0x10000 then [UInt8.ofNat (224 + n / 4096 % 16), continuation (n / 64), continuation n]
  else if n < 0x200000 then
    [UInt8.ofNat (240 + n / 262144 % 8), continuation (n / 4096), continuation (n / 64), continuation n]
  else if n < 0x4000000 then
    [UInt8.ofNat (248 + n / 16777216 % 4), continuation (n / 262144), continuation (n / 4096),
      continuation (n / 64), continuation n]
  else
    [UInt8.ofNat (252 + n / 1073741824 % 2), continuation (n / 16777216), continuation (n / 262144),
      continuation (n / 4096), continuation (n / 64), continuation n]

/-- A text that is the encoding of some code points. -/
inductive Utf8 : List UInt8 → Prop
  | nil : Utf8 []
  | cons {n : ℕ} {s : List UInt8} (hn : n < 2 ^ 31) (h : Utf8 s) : Utf8 (encodeUtf8 n ++ s)

theorem Utf8.append {s t : List UInt8} (hs : Utf8 s) (ht : Utf8 t) : Utf8 (s ++ t) := by
  induction hs with
  | nil => exact ht
  | cons hn _ ih =>
    rw [List.append_assoc]
    exact .cons hn ih

end OnvifSdk.Lib
