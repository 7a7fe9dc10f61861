import WalletLedger.Notice

/-!
# Amounts of a transfer

Of what goes into a transfer a part comes back as change and a part is the fee.  What is
left is the amount.  Totals that contradict one another give zero and a notice.
-/

namespace WalletLedger

structure Amounts where
  amount : UInt64
  fee : UInt64
  deriving DecidableEq, Repr

/-- The difference of two words, zero where it would be below zero. -/
def cutSub (a b : UInt64) : UInt64 :=
  if b ≤ a then a - b else 0

/-- Amount and fee from gross totals; an unknown change counts as zero. -/
def outgoingAmounts (amountIn amountOut : UInt64) (change : Option UInt64) : Amounts :=
  let fee := cutSub amountIn amountOut
  ⟨cutSub (cutSub amountIn (change.getD 0)) fee, fee⟩

/-- Whether change and fee take more than went in, without the sum leaving a word. -/
def overspent (amountIn change fee : UInt64) : Bool :=
  amountIn < change || amountIn - change < fee

def amountNotices (hash : TxHash) (amountIn amountOut : UInt64) (change : Option UInt64) :
    List Notice :=
  let fee := cutSub amountIn amountOut
  let change := change.getD 0
  (if amountIn < amountOut then [.feeClamped hash amountIn amountOut] else []) ++
    (if overspent amountIn change fee then [.amountClamped hash amountIn change fee] else [])

/-- Blocks on top of a height; none for height zero and for heights above the wallet's. -/
def confirmations (walletHeight blockHeight : UInt64) : UInt64 :=
  if blockHeight = 0 then 0 else cutSub walletHeight blockHeight

end WalletLedger
