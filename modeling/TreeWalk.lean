import TreeWalk.Main
import TreeWalk.Proofs.Equality
import TreeWalk.Proofs.Heap.Access
import TreeWalk.Proofs.Number.ReadBack
import TreeWalk.Proofs.Parse.ErrorPositions
import TreeWalk.Proofs.Parse.Segments
import TreeWalk.Proofs.Resolution.OneVariable
import TreeWalk.Proofs.Scan.Lines
import TreeWalk.Proofs.Scan.MaximalMunch
import TreeWalk.Proofs.Scan.NormalForm
import TreeWalk.Proofs.Session.Echo
import TreeWalk.Proofs.Session.FaultLines
import TreeWalk.Proofs.Session.ForLoops
import TreeWalk.Proofs.Session.Initializers
import TreeWalk.Proofs.Session.LocalNames
import TreeWalk.Proofs.Session.Outcomes
import TreeWalk.Proofs.Session.Receivers
import TreeWalk.Proofs.Session.Rejection
import TreeWalk.Proofs.Session.Scopes
import TreeWalk.Proofs.Session.SingleExpression
import TreeWalk.Proofs.Session.Splitting
import TreeWalk.Proofs.Syntax.Unambiguous
