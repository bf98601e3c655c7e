import RuleTypes.Proofs.Check.Lexical
import RuleTypes.Proofs.Overloads
import RuleTypes.Proofs.Session.Completeness
import RuleTypes.Proofs.Session.ControlFlow
import RuleTypes.Proofs.Session.Discards
import RuleTypes.Proofs.Session.Isolation
import RuleTypes.Proofs.Session.Order
import RuleTypes.Proofs.Session.Permanence
import RuleTypes.Proofs.Session.Sentinels
import RuleTypes.Proofs.Session.Verdicts
import RuleTypes.Proofs.TypeExpr.Additions
import RuleTypes.Proofs.TypeExpr.Printing
import RuleTypes.Proofs.TypeTable.RoundTrip
import RuleTypes.Proofs.Check.Members
import RuleTypes.Proofs.Check.MemberCalls
import RuleTypes.Proofs.Session.Members
import RuleTypes.Proofs.Annotations.Rollback
import RuleTypes.Proofs.Annotations.Journal
import RuleTypes.Proofs.Check.Literals
import RuleTypes.Proofs.Check.OperatorCalls
import RuleTypes.Proofs.TypeExpr.Stops
import RuleTypes.Proofs.TypeExpr.ErrorOffsets
import RuleTypes.Proofs.Fingerprint.Changes
import RuleTypes.Proofs.Session.Places
import RuleTypes.Proofs.Span
import RuleTypes.Proofs.TypeExpr.Spacing
import RuleTypes.Proofs.TypeTable.Descent
import RuleTypes.Proofs.TypeTable.Searches
