import XetePrograms.Swap.Offer
import XetePrograms.Swap.Basket
import XetePrograms.Swap.Pnft
import XetePrograms.Swap.Mcore
import XetePrograms.Swap.Order

/-!
# The dispatch on the first byte of the instruction data
-/

set_option autoImplicit false

namespace Xete.Swap
open Xete.Octets Xete.Weakest Xete.Chain Xete.Runtime

variable (E : Env)

def handler : UInt8 → Bytes → Exec Unit
  | 0 => openSwap E
  | 1 => fill E
  | 2 => cancelSwap E
  | 3 => expire E
  | 4 => makeOffer E
  | 5 => acceptOffer E
  | 6 => withdrawOffer E
  | 7 => expireOffer E
  | 8 => initConfig E
  | 9 => updateConfig E
  | 10 => initFeeVault E
  | 11 => sweepFees E
  | 12 => openBasket E
  | 13 => fillBasket E
  | 14 => claimBearer E
  | 15 => rewrap E
  | 16 => cancelBasket E
  | 17 => expireBasket E
  | 18 => openPnft E
  | 19 => fillPnft E
  | 20 => cancelPnft E
  | 21 => expirePnft E
  | 22 => openCore E
  | 23 => fillCore E
  | 24 => cancelCore E
  | 25 => expireCore E
  | 26 => list E
  | 27 => fillListing E
  | 28 => cancelListing E
  | 29 => expireListing E
  | 30 => listPnft E
  | 31 => fillListingPnft E
  | 32 => cancelListingPnft E
  | 33 => expireListingPnft E
  | 34 => listCore E
  | 35 => fillListingCore E
  | 36 => cancelListingCore E
  | 37 => expireListingCore E
  | 38 => settleSignedOrder E
  | 39 => settleSignedOrderPnft E
  | 40 => settleSignedOrderCore E
  | 41 => settleSignedBidSpl E
  | 42 => settleSignedBidPnft E
  | 43 => settleSignedBidCore E
  | _ => fun _ => throw .invalidInstructionData

def process : Bytes → Exec Unit
  | [] => throw .invalidInstructionData
  | tag :: rest => handler E tag rest

end Xete.Swap
