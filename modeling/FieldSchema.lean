import FieldSchema.Main
import FieldSchema.Proofs.Compiled
import FieldSchema.Proofs.Complaints
import FieldSchema.Proofs.Demands
import FieldSchema.Proofs.Meaning
import FieldSchema.Proofs.Depth
import FieldSchema.Proofs.Equalities
import FieldSchema.Proofs.Keys
import FieldSchema.Proofs.Reachable
import FieldSchema.Proofs.Reported
import FieldSchema.Proofs.Reports
import FieldSchema.Proofs.Stability
import FieldSchema.Proofs.Turns
import FieldSchema.Proofs.WrittenDates
import FieldSchema.Proofs.Answers
import FieldSchema.Proofs.Coercion
import FieldSchema.Proofs.Judged
import FieldSchema.Proofs.NeutralConditions
import FieldSchema.Proofs.Places
import FieldSchema.Proofs.QuotedText
import FieldSchema.Proofs.Nulls
import FieldSchema.Proofs.Rearranged
import FieldSchema.Proofs.Outcomes
import FieldSchema.Proofs.Defaults
import FieldSchema.Proofs.FieldByField
import FieldSchema.Proofs.FieldOrder
import FieldSchema.Proofs.Changes
import FieldSchema.Proofs.Undeclared
import FieldSchema.Proofs.Registrations
import FieldSchema.Proofs.Operations
import FieldSchema.Proofs.Undisturbed
import FieldSchema.Proofs.Writing
import FieldSchema.Proofs.ExitStatus
import FieldSchema.Proofs.TestOrder
import FieldSchema.Proofs.ConstraintOrder
import FieldSchema.Proofs.CallSequences
import FieldSchema.Proofs.BuildFaults
import FieldSchema.Proofs.Sources
import FieldSchema.Proofs.Messages
import FieldSchema.Proofs.NumberBounds
import FieldSchema.Proofs.DateBounds
import FieldSchema.Proofs.PatternMeaning
import FieldSchema.Proofs.TextForms
import FieldSchema.Proofs.Cursors
import FieldSchema.Proofs.FoldedTexts
import FieldSchema.Proofs.JsonDeclarations
import FieldSchema.Proofs.Conforming
import FieldSchema.Proofs.Additions
import FieldSchema.Proofs.DisabledConstraints
import FieldSchema.Proofs.EarlySearch
import FieldSchema.Proofs.Numerals
import FieldSchema.Proofs.WrappedFields
import FieldSchema.Proofs.Spellings
import FieldSchema.Proofs.MissingNames
import FieldSchema.Proofs.Rounds
