import XetePrograms.Library.Octets
import XetePrograms.Library.Borsh
import XetePrograms.Library.Weakest
import XetePrograms.Library.Errors
import XetePrograms.Library.Episode
import XetePrograms.Library.Flows
import XetePrograms.Solana.Chain
import XetePrograms.Solana.Token
import XetePrograms.Solana.Runtime
import XetePrograms.Solana.Rules
import XetePrograms.Solana.Frame
import XetePrograms.Solana.Reference
import XetePrograms.Solana.Approval
import XetePrograms.Solana.Balance
import XetePrograms.Solana.Checked
import XetePrograms.Swap.State
import XetePrograms.Swap.Cpi
import XetePrograms.Swap.Config
import XetePrograms.Swap.Royalty
import XetePrograms.Swap.Events
import XetePrograms.Swap.Settle
import XetePrograms.Swap.Swap
import XetePrograms.Swap.Offer
import XetePrograms.Swap.Basket
import XetePrograms.Swap.Pnft
import XetePrograms.Swap.Mcore
import XetePrograms.Swap.Escrowless
import XetePrograms.Swap.Order
import XetePrograms.Swap.Process
import XetePrograms.Swap.Signature
import XetePrograms.Swap.Trace
import XetePrograms.Swap.OfferTrace
import XetePrograms.Swap.OfferTerms
import XetePrograms.Swap.SwapTrace
import XetePrograms.Swap.ConfigTrace
import XetePrograms.Swap.RoyaltyTrace
import XetePrograms.Swap.Metadata
import XetePrograms.Swap.AssetTrace
import XetePrograms.Swap.OrderTrace
import XetePrograms.Swap.Footprint
import XetePrograms.Swap.BasketTrace
import XetePrograms.Swap.BasketOpen
import XetePrograms.Swap.ListingTrace
import XetePrograms.Swap.Outcome
import XetePrograms.Swap.Within
import XetePrograms.Swap.Sdk
import XetePrograms.Swap.Codec
import XetePrograms.Swap.BasketTerms
import XetePrograms.Swap.Seeds
import XetePrograms.Swap.Run
import XetePrograms.Swap.Reach
import XetePrograms.Swap.BasketRecord
import XetePrograms.Swap.BasketBounds
import XetePrograms.Swap.Records
import XetePrograms.Swap.RecordEnds
import XetePrograms.Swap.RecordRun
import XetePrograms.Swap.Zeroed
import XetePrograms.Swap.Listed
import XetePrograms.Swap.Custody
import XetePrograms.Swap.Bearer
import XetePrograms.Swap.BasketForm
import XetePrograms.Swap.Creators
import XetePrograms.Swap.Readback
import XetePrograms.Swap.Market
import XetePrograms.Swap.WantLeg
import XetePrograms.Swap.BasketSettle
import XetePrograms.Swap.FeeLaw
import XetePrograms.Swap.Domains
import XetePrograms.Swap.OrderOnce
import XetePrograms.Swap.Authentic
import XetePrograms.Swap.OfferRun
import XetePrograms.Swap.Solvent
import XetePrograms.Swap.Quiet
import XetePrograms.Swap.Supplied
import XetePrograms.Swap.Approvals
import XetePrograms.Swap.Families
import XetePrograms.Swap.FamilyRun
import XetePrograms.Swap.Genuine
import XetePrograms.Swap.Origin
import XetePrograms.Swap.Prefunded
import XetePrograms.Swap.Client
import XetePrograms.Swap.Refund
import XetePrograms.Swap.Take
import XetePrograms.Swap.Accept
import XetePrograms.Swap.BasketFill
import XetePrograms.Swap.BasketRefund
import XetePrograms.Swap.Feed
import XetePrograms.Swap.FeeVaults
import XetePrograms.Solana.Lamports
import XetePrograms.Tab.Deployed
import XetePrograms.Tab.Readable
import XetePrograms.Tab.Settled
import XetePrograms.Tab.Counter
import XetePrograms.Tab.Agree
import XetePrograms.Tab.Book
import XetePrograms.Tab.Safety
import XetePrograms.Tab.Concluded
