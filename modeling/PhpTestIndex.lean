import PhpTestIndex.Main
import PhpTestIndex.Proofs.PhpUnit.Keys
import PhpTestIndex.Proofs.Session.Announcing
import PhpTestIndex.Proofs.Session.Identity
import PhpTestIndex.Proofs.Php.Documents
import PhpTestIndex.Proofs.Session.Positions
import PhpTestIndex.Proofs.PhpUnit.Scopes
import PhpTestIndex.Proofs.Php.Order
import PhpTestIndex.Proofs.Session.Forests
import PhpTestIndex.Proofs.PhpUnit.Coverage
import PhpTestIndex.Proofs.CommandLine.Formats
import PhpTestIndex.Proofs.Report.Lossless
import PhpTestIndex.Proofs.PhpUnit.Imports
import PhpTestIndex.Proofs.PhpUnit.Descent
import PhpTestIndex.Proofs.Session.Placeholder
import PhpTestIndex.Proofs.Php.DoubleQuoted
import PhpTestIndex.Proofs.Pest.RowLabels
import PhpTestIndex.Proofs.PhpUnit.DocBlock
import PhpTestIndex.Proofs.Php.Comments
import PhpTestIndex.Proofs.Test.Regrouping
import PhpTestIndex.Proofs.Pest.Suites
import PhpTestIndex.Proofs.PhpUnit.BothForms
import PhpTestIndex.Proofs.Discovery.Candidates
import PhpTestIndex.Proofs.Settings.Saved
import PhpTestIndex.Proofs.CommandLine.Recovery
import PhpTestIndex.Proofs.Report.Outline
import PhpTestIndex.Proofs.Session.Repeats
import PhpTestIndex.Proofs.PhpUnit.Documentation
import PhpTestIndex.Proofs.Context
import PhpTestIndex.Proofs.Php.FirstFault
