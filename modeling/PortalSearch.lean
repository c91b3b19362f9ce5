import PortalSearch.Connection
import PortalSearch.Group
import PortalSearch.Proofs.Connection.Helpers
import PortalSearch.Proofs.Connection.Outcome
import PortalSearch.Proofs.Connection.Secrecy
import PortalSearch.Proofs.Decimal.Nearest
import PortalSearch.Proofs.Hook.Address
import PortalSearch.Proofs.Hook.Secrecy
import PortalSearch.Proofs.Hook.Transparency
import PortalSearch.Proofs.Json.Reading
import PortalSearch.Proofs.Json.Writing
import PortalSearch.Proofs.Query.Account
import PortalSearch.Proofs.Query.Again
import PortalSearch.Proofs.Query.Boosts
import PortalSearch.Proofs.Query.Clone
import PortalSearch.Proofs.Query.Commit
import PortalSearch.Proofs.Query.Ending
import PortalSearch.Proofs.Query.Expression
import PortalSearch.Proofs.Query.Finished
import PortalSearch.Proofs.Query.Floor
import PortalSearch.Proofs.Query.Groups
import PortalSearch.Proofs.Query.Guards
import PortalSearch.Proofs.Query.Inside
import PortalSearch.Proofs.Query.Invariant
import PortalSearch.Proofs.Query.Joints
import PortalSearch.Proofs.Query.Lexing
import PortalSearch.Proofs.Query.Mending
import PortalSearch.Proofs.Query.Negation
import PortalSearch.Proofs.Query.Nesting
import PortalSearch.Proofs.Query.Normal
import PortalSearch.Proofs.Query.Order
import PortalSearch.Proofs.Query.Parentheses
import PortalSearch.Proofs.Query.Pending
import PortalSearch.Proofs.Query.Phrases
import PortalSearch.Proofs.Query.ReadBack
import PortalSearch.Proofs.Query.Reading
import PortalSearch.Proofs.Query.Refusal
import PortalSearch.Proofs.Query.Run
import PortalSearch.Proofs.Query.Standing
import PortalSearch.Proofs.Query.Surroundings
import PortalSearch.Proofs.Query.Trimming
import PortalSearch.Proofs.Query.Turns
import PortalSearch.Proofs.Query.Words
import PortalSearch.Proofs.Query.Written
import PortalSearch.Proofs.Search.Categories
import PortalSearch.Proofs.Search.GroupContent
import PortalSearch.Proofs.Search.Kinds
import PortalSearch.Proofs.Time.Epoch
import PortalSearch.Proofs.Url.Identifier
import PortalSearch.Proofs.Url.Segment
import PortalSearch.Query.Expression
import PortalSearch.Query.Lexer
import PortalSearch.Query.Phrase
import PortalSearch.Search
import PortalSearch.Version
