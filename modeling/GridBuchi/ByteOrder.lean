/-
# `GridBuchi.ByteOrder` — texts in the order of their UTF-8 bytes

Names are listed in the order of their encoded bytes, compared one by one,
with a text before its continuations.  The order is total, and since the
encoding loses nothing, two texts that are equal in it are equal.
-/

namespace GridBuchi.ByteOrder

/-- The UTF-8 encoding of a text. -/
def bytes (s : String) : List UInt8 := s.toByteArray.data.toList

def le (s t : String) : Bool := bytes s ≤ bytes t

theorem bytes_injective {s t : String} (h : bytes s = bytes t) : s = t := by
  apply String.toByteArray_inj.mp
  exact ByteArray.ext (Array.toList_inj.mp h)

theorem le_trans (r s t : String) (hrs : le r s = true) (hst : le s t = true) : le r t = true := by
  simp only [le, decide_eq_true_eq] at hrs hst ⊢
  exact List.le_trans hrs hst

theorem le_total (s t : String) : (le s t || le t s) = true := by
  simpa [le] using List.le_total (bytes s) (bytes t)

theorem le_antisymm {s t : String} (hst : le s t = true) (hts : le t s = true) : s = t := by
  simp only [le, decide_eq_true_eq] at hst hts
  exact bytes_injective (List.le_antisymm hst hts)

end GridBuchi.ByteOrder
