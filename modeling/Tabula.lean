import Tabula.Main
import Tabula.Proofs.Record
import Tabula.Proofs.Engine
import Tabula.Proofs.Refusal
import Tabula.Proofs.Session
import Tabula.Proofs.Integrity
import Tabula.Proofs.Json.Spelling
import Tabula.Proofs.Json.Layout
import Tabula.Proofs.Json.Reading
import Tabula.Proofs.Document
import Tabula.Proofs.FileSystem
import Tabula.Proofs.Storage.Directory
import Tabula.Proofs.Storage.Failure
import Tabula.Proofs.Storage.Places
import Tabula.Proofs.Storage.Refinement
import Tabula.Proofs.Relation
import Tabula.Proofs.Relation.Simulation
import Tabula.Proofs.Text.Blank
import Tabula.Proofs.Text.Keyword
import Tabula.Proofs.Value.Literal
import Tabula.Proofs.Command.Parser
import Tabula.Proofs.Command.Written
import Tabula.Proofs.FileSystem.Way
import Tabula.Proofs.Storage.Site
import Tabula.Proofs.Storage.Orderly
import Tabula.Proofs.Storage.Frame
import Tabula.Proofs.Storage.Separation
import Tabula.Proofs.Corruption
import Tabula.Proofs.Command.Insertable
import Tabula.Proofs.CommandLine.Arguments
import Tabula.Proofs.CommandLine.Confirmation
import Tabula.Proofs.Storage.Containment
import Tabula.Proofs.Command.Question
import Tabula.Proofs.Command.Acceptance
import Tabula.Proofs.Storage.Count
import Tabula.Proofs.Storage.Creation
import Tabula.Proofs.Store.Insertion
import Tabula.Proofs.Session.Frame
import Tabula.Proofs.Session.Independence
import Tabula.Proofs.Store.Overwriting
import Tabula.Proofs.Catalog
import Tabula.Proofs.Store.Deletion
import Tabula.Proofs.Text.Words
import Tabula.Proofs.Text.Words.Spelling
import Tabula.Proofs.Text.Words.Ending
import Tabula.Proofs.Command.Identifier
import Tabula.Proofs.Value.Classification
import Tabula.Proofs.Catalog.History
import Tabula.Proofs.Clause
import Tabula.Proofs.Store.Validation
import Tabula.Proofs.Render.Grid
import Tabula.Proofs.Text.Utf8
import Tabula.Proofs.Command.Slicing
import Tabula.Proofs.Config
import Tabula.Proofs.SelectCache
import Tabula.Proofs.Record.Columns
