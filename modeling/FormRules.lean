import FormRules.Main
import FormRules.Session
import FormRules.File.Tree
import FormRules.Proofs.Attributes.Writes
import FormRules.Proofs.Attributes.Colons
import FormRules.Proofs.Attributes.Concatenation
import FormRules.Proofs.Attributes.Reordering
import FormRules.Proofs.Attributes.Unnamed
import FormRules.Proofs.Attributes.Forms
import FormRules.Proofs.Attributes.Provenance
import FormRules.Proofs.Attributes.Meaning
import FormRules.Proofs.Rule.WellFormed
import FormRules.Proofs.Json.Truncation
import FormRules.Proofs.Flat.Agreement
import FormRules.Proofs.Flat.Repetition
import FormRules.Proofs.Json.Unambiguous
import FormRules.Proofs.Json.Layout
import FormRules.Proofs.Session.Runs
import FormRules.Proofs.File.Loading
import FormRules.Proofs.File.Extension
import FormRules.Proofs.CommandLine.Reports
import FormRules.Proofs.CommandLine.Lines
import FormRules.Proofs.Settings.Decoding
