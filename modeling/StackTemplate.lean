import StackTemplate.Main
import StackTemplate.Session
import StackTemplate.Proofs.DisplayRoundTrip
import StackTemplate.Proofs.ErrorOffsets
import StackTemplate.Proofs.InclusionSubstitution
import StackTemplate.Proofs.SafeCuts
import StackTemplate.Proofs.ScanTermination
import StackTemplate.Proofs.LimitThreshold
import StackTemplate.Proofs.DirectiveShape
import StackTemplate.Proofs.FragmentShape
import StackTemplate.Proofs.WellNestedText
import StackTemplate.Proofs.DocumentStrings
import StackTemplate.Proofs.DocumentStability
import StackTemplate.Proofs.KeyContainment
import StackTemplate.Proofs.DirectiveExtent
import StackTemplate.Proofs.SameNesting
import StackTemplate.Proofs.SourceEcho
import StackTemplate.Proofs.DisplayStability
import StackTemplate.Proofs.Classification
import StackTemplate.Proofs.ExpressionExtent
import StackTemplate.Proofs.LookupArity
import StackTemplate.Proofs.ModeAgreement
import StackTemplate.Proofs.InclusionLedger
import StackTemplate.Proofs.CommentExtent
import StackTemplate.Proofs.CommentStability
import StackTemplate.Proofs.FragmentWords
import StackTemplate.Proofs.JsonLayout
import StackTemplate.Proofs.CommentTransparency
import StackTemplate.Proofs.FragmentDecoding
import StackTemplate.Proofs.InclusionRecord
import StackTemplate.Proofs.PathNames
import StackTemplate.Proofs.InclusionBase
import StackTemplate.Proofs.CommandOutcome
import StackTemplate.Proofs.ByteOffsets
import StackTemplate.Proofs.CheckedGrammar
import StackTemplate.Proofs.CheckedScan
import StackTemplate.Proofs.ScanDefined
import StackTemplate.Proofs.MatchingDelimiter
import StackTemplate.Proofs.KeyPartition
