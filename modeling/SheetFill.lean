import SheetFill.Main
import SheetFill.Proofs.Worksheet.Merges
import SheetFill.Proofs.Worksheet.Placement
import SheetFill.Proofs.Worksheet.Storage
import SheetFill.Proofs.Worksheet.TableRows
import SheetFill.Proofs.Template.Inventory
import SheetFill.Proofs.Placeholder.Asks
import SheetFill.Proofs.Placeholder.Markup
import SheetFill.Proofs.SharedStrings.Regular
import SheetFill.Proofs.Worksheet.Agreement
import SheetFill.Proofs.SharedStrings.Indices
import SheetFill.Proofs.SharedStrings.Runs
import SheetFill.Proofs.Worksheet.Settled
import SheetFill.Proofs.Worksheet.GrownRanges
import SheetFill.Proofs.Worksheet.MergeCopies
import SheetFill.Proofs.Worksheet.Addresses
import SheetFill.Proofs.Worksheet.SharedFormulas
import SheetFill.Proofs.Template.Frame
import SheetFill.Proofs.InsertionLog.FormulaTokens
import SheetFill.Proofs.DataPath.Bracketed
import SheetFill.Proofs.DataPath.Grammar
import SheetFill.Proofs.Placeholder.Bodies
import SheetFill.Proofs.Placeholder.Spans
import SheetFill.Proofs.InsertionLog.Places
import SheetFill.Proofs.InsertionLog.Tiling
import SheetFill.Proofs.Placeholder.Unterminated
import SheetFill.Proofs.SharedStrings.Uses
import SheetFill.Proofs.Worksheet.Static
import SheetFill.Proofs.Reference.Notation
import SheetFill.Proofs.Reference.Moves
import SheetFill.Proofs.Workbook.Tables
import SheetFill.Proofs.Package.Patterns
import SheetFill.Proofs.Calendar.ReadBack
import SheetFill.Proofs.Reference.Marks
import SheetFill.Proofs.Xml.TagOrder
import SheetFill.Proofs.Workbook.Registration
import SheetFill.Proofs.Calendar.Serial
import SheetFill.Proofs.Package.Targets
import SheetFill.Proofs.Placeholder.Escaped
