import WalletLedger.Url.Percent

/-!
# Texts without percent signs

A text in which nothing is encoded stands for itself.
-/

namespace WalletLedger
namespace Url

theorem percentDecode_of_not_mem {cs : List Char} (h : '%' ∉ cs) :
    percentDecode cs = Text.utf8 cs := by
  induction cs with
  | nil => rfl
  | cons c cs ih =>
      rw [List.mem_cons, not_or] at h
      unfold percentDecode
      split
      · next heq => cases heq
      · next heq =>
          cases heq
          exact absurd rfl h.1
      · next heq =>
          cases heq
          rw [ih h.2]
          exact List.flatMap_append.symm

theorem fromUTF8?_utf8 (cs : List Char) :
    String.fromUTF8? (Text.utf8 cs).toByteArray = some (String.ofList cs) := by
  have hvalid : (Text.utf8 cs).toByteArray.IsValidUTF8 := ByteArray.isValidUTF8_utf8Encode
  unfold String.fromUTF8?
  rw [dif_pos hvalid]
  rfl

theorem percentText?_of_not_mem {s : String} (h : '%' ∉ s.toList) :
    percentText? s.toList = some s := by
  unfold percentText?
  rw [percentDecode_of_not_mem h, fromUTF8?_utf8, String.ofList_toList]

end Url
end WalletLedger
