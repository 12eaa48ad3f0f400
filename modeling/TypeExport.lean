import TypeExport.Main
import TypeExport.Config.Load
import TypeExport.Files.Disk
import TypeExport.Output.Generation
import TypeExport.Schema.Build
import TypeExport.Schema.Encode
import TypeExport.Schema.Load
import TypeExport.Text.Identifier
import TypeExport.Proofs.TypeExpr.RoundTrip
import TypeExport.Proofs.Discovery.Roots
import TypeExport.Proofs.Output.Bundle
import TypeExport.Proofs.Output.Imports
import TypeExport.Proofs.Data.Decoder
import TypeExport.Proofs.Json.Documents
import TypeExport.Proofs.Schema.Basic
import TypeExport.Proofs.Schema.RoundTrip
import TypeExport.Proofs.Files.Faults
import TypeExport.Proofs.Output.Generation
import TypeExport.Proofs.TypeExpr.Grammar
import TypeExport.Proofs.Output.FileNames
import TypeExport.Proofs.Output.Classes
import TypeExport.Proofs.Output.TypeReading
import TypeExport.Proofs.Output.Redaction
import TypeExport.Proofs.Output.Widening
import TypeExport.Proofs.Command.DryRun
import TypeExport.Proofs.Output.Reordering
import TypeExport.Proofs.Source.Project
import TypeExport.Proofs.Source.RoundTrip
import TypeExport.Proofs.Output.PrimitiveNames
import TypeExport.Proofs.Discovery.Payloads
import TypeExport.Proofs.Discovery.Representatives
import TypeExport.Proofs.Schema.Paths
import TypeExport.Proofs.Source.Scan
import TypeExport.Proofs.Schema.Resolution
import TypeExport.Proofs.Output.SelfImports
import TypeExport.Proofs.Source.MemberValues
import TypeExport.Proofs.Config.Placeholder
import TypeExport.Proofs.Source.Owners
import TypeExport.Proofs.Source.Collection
import TypeExport.Proofs.Output.ModuleReading
import TypeExport.Proofs.Schema.KeyOrder
import TypeExport.Proofs.Output.SequenceSpellings
import TypeExport.Proofs.Source.ModuleFilters
import TypeExport.Proofs.Schema.Listing
import TypeExport.Proofs.Source.FieldOptions
