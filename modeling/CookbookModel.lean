import CookbookModel.Board.Memory.Theorems.Membership
import CookbookModel.Board.Memory.Theorems.Nicknames
import CookbookModel.Board.Memory.Theorems.Idempotency
import CookbookModel.Board.Memory.Theorems.Audits
import CookbookModel.Board.Memory.Theorems.Listing
import CookbookModel.Board.Server.Theorems.Fidelity
import CookbookModel.Board.Avp.Theorems.Agreement
import CookbookModel.Board.Http.Theorems.Reading
import CookbookModel.Board.Http.Theorems.Concealment
import CookbookModel.Board.Dynamo.Theorems.WellFormed
import CookbookModel.Board.Dynamo.Theorems.Allowlist
import CookbookModel.Board.Dynamo.Theorems.Reservations
import CookbookModel.Board.Dynamo.Theorems.Posts
import CookbookModel.Board.Dynamo.Theorems.Incremental
import CookbookModel.Orders.Theorems.SingleUse
import CookbookModel.Orders.Theorems.Mediation
import CookbookModel.Workers.Theorems.AtMostOnce
import CookbookModel.Workers.Theorems.Unforgeable
import CookbookModel.Workers.Theorems.OwnSignature
import CookbookModel.Langchain.Theorems.ReplayProtection
import CookbookModel.Board.Cli.Theorems.RoundTrip
import CookbookModel.Board.Dynamo.Theorems.Summaries
import CookbookModel.Board.Dynamo.Theorems.Schema
import CookbookModel.Board.Dynamo.Theorems.Recency
import CookbookModel.Board.Dynamo.Theorems.Quotas
import CookbookModel.Workers.Theorems.Presentation
import CookbookModel.Orders.Theorems.Canonical
import CookbookModel.A2a.Theorems.StableJson
import CookbookModel.Board.Cli.Theorems.Flags
import CookbookModel.Board.Cli.Theorems.Paths
import CookbookModel.Board.Theorems.Names
import CookbookModel.Workers.Theorems.Evidence
import CookbookModel.Workers.Theorems.Coherence
import CookbookModel.ResearchLab.Theorems.ReplayGuard
import CookbookModel.ImagePoc.Theorems.Identity
import CookbookModel.ImagePoc.Theorems.EventStream
import CookbookModel.ImagePoc.Theorems.Errors
import CookbookModel.Board.Theorems.SideBySide
import CookbookModel.Board.Theorems.Serial
import CookbookModel.Stripe.Theorems.Balances
import CookbookModel.GithubReview.Theorems.Scope
