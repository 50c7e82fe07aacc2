import MemberRules.Attribute.Build
import MemberRules.Configuration.Gathering
import MemberRules.Configuration.Shorthand
import MemberRules.ErrorKind
import MemberRules.Rule.Described
import MemberRules.Rule.Search
import MemberRules.Validation.Run
import MemberRules.Value.Written
import MemberRules.Proofs.Waiting.Agreement
import MemberRules.Proofs.Validation.Failures
import MemberRules.Proofs.Validation.Order
import MemberRules.Proofs.Validation.Paths
import MemberRules.Proofs.Validation.Surroundings
import MemberRules.Proofs.Gate.Failing
import MemberRules.Proofs.Registry.Nested
import MemberRules.Proofs.Registry.Representation
import MemberRules.Proofs.Registry.Adaptation
import MemberRules.Proofs.Registry.Growth
import MemberRules.Proofs.Message.Memory
import MemberRules.Proofs.Obtaining.Histories
import MemberRules.Proofs.Message.Resolution
import MemberRules.Proofs.Declared.Blocks
import MemberRules.Proofs.Configuration.Refused
import MemberRules.Proofs.Validation.Written
import MemberRules.Proofs.Configuration.Numbers
import MemberRules.Proofs.Configuration.Making
import MemberRules.Proofs.Configuration.Moves
import MemberRules.Proofs.Configuration.Numbering
import MemberRules.Proofs.Declared.Registered
import MemberRules.Proofs.Declared.Ordered
import MemberRules.Proofs.Declared.Dropped
import MemberRules.Proofs.Declared.Replaced
import MemberRules.Proofs.Declared.Rebuilt
import MemberRules.Proofs.Declared.Unselected
import MemberRules.Proofs.Declared.Conditioned
import MemberRules.Proofs.Declared.AttachOrder
import MemberRules.Proofs.Configuration.Turns
import MemberRules.Proofs.Configuration.Providers
import MemberRules.Proofs.Declared.Reaching
import MemberRules.Proofs.Inheriting.Moved
import MemberRules.Proofs.Inheriting.Builds
import MemberRules.Proofs.Waiting.Awaiting
import MemberRules.Proofs.Registry.Closure
import MemberRules.Proofs.Model.Selected
import MemberRules.Proofs.Model.Inherited
import MemberRules.Proofs.Format.Grammar
import MemberRules.Proofs.Validation.Merged
import MemberRules.Proofs.Message.Precedence
import MemberRules.Proofs.Message.Fallback
import MemberRules.Proofs.Number.Places
import MemberRules.Proofs.Attribute.Compared
import MemberRules.Proofs.Attribute.Ranges
import MemberRules.Proofs.Culture.Numbers
