import OnvifSdk.Gsoap.XmlText

namespace OnvifSdk.Gsoap

open OnvifSdk.Lib

def Source.size (src : Source) : ℕ := src.input.length + if src.ahead = 0 then 0 else 1

/-- Reading some of `n` bytes has left `s`, and the last of those read is `c`. -/
structure Consumed (n : ℕ) (r : ℤ × List UInt8) : Prop where
  le : r.2.length ≤ n
  lt : r.1 ≠ eof → r.2.length < n

theorem Consumed.mono {n n' : ℕ} {r : ℤ × List UInt8} (h : Consumed n r) (hn : n ≤ n') : Consumed n' r :=
  ⟨h.le.trans hn, fun he => (h.lt he).trans_le hn⟩

/-- A step leaves no more than `n` bytes, and fewer where another has to follow. -/
def Turn.Fits (n : ℕ) : Turn → Prop
  | .done c src => src.size ≤ n ∧ -2 ^ 31 ≤ c ∧ -2 ^ 31 ≤ src.ahead
  | .more c src => src.input.length < n ∧ -2 ^ 31 ≤ c ∧ src.ahead = 0

theorem Turn.Fits.mono {n n' : ℕ} {step : Turn} (h : step.Fits n) (hn : n ≤ n') : step.Fits n' := by
  cases step with
  | done c src => exact ⟨h.1.trans hn, h.2⟩
  | more c src => exact ⟨h.1.trans_le hn, h.2⟩

end OnvifSdk.Gsoap
