import ConditionLint.Main
import ConditionLint.Proofs.Chains.Continued
import ConditionLint.Proofs.Chains.Element
import ConditionLint.Proofs.Chains.Redundant
import ConditionLint.Proofs.Command.Dumps
import ConditionLint.Proofs.Command.Linting
import ConditionLint.Proofs.Lint.Configured
import ConditionLint.Proofs.Lint.Faults
import ConditionLint.Proofs.Lint.Reordering
import ConditionLint.Proofs.Lint.Repetition
import ConditionLint.Proofs.Sites.Callback
import ConditionLint.Proofs.Sites.Comparison
import ConditionLint.Proofs.Sites.Instance
import ConditionLint.Proofs.Sites.Negation
import ConditionLint.Proofs.Sites.Receiver
import ConditionLint.Proofs.Sites.Undecidable
import ConditionLint.Proofs.Sites.Union
import ConditionLint.Proofs.Table.Canonical
import ConditionLint.Proofs.Table.Display
import ConditionLint.Proofs.Table.Faults
import ConditionLint.Proofs.Table.Indices
import ConditionLint.Proofs.Table.Persistence
import ConditionLint.Proofs.Table.Rebuilt
import ConditionLint.Proofs.Tokens.FirstToken
import ConditionLint.Proofs.TypedSource.Closed
import ConditionLint.Proofs.TypedSource.Renumbering
import ConditionLint.Proofs.TypedSource.RoundTrip
import ConditionLint.Proofs.Values.Literal
import ConditionLint.Proofs.Values.Truthiness
import ConditionLint.Proofs.Values.Union
