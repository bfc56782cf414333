import Syllabus.Json.Datum
import Syllabus.Main
import Syllabus.Proofs.Template.NestingErrors
import Syllabus.Proofs.Template.BlockTree
import Syllabus.Proofs.Template.BlockEnds
import Syllabus.Proofs.Template.TreeRendering
import Syllabus.Proofs.Template.WrittenText
import Syllabus.Proofs.Template.Libraries
import Syllabus.Proofs.Template.CommandText
import Syllabus.Proofs.Template.SourceText
import Syllabus.Proofs.Template.Concatenation
import Syllabus.Proofs.Template.Displacement
import Syllabus.Proofs.Template.InTurn
import Syllabus.Proofs.Files.Changes
import Syllabus.Proofs.Json.Strings
import Syllabus.Proofs.Site.LedgerText
import Syllabus.Proofs.Site.FileKinds
import Syllabus.Proofs.Site.PageWrites
import Syllabus.Proofs.Site.PageLog
import Syllabus.Proofs.Site.Making
import Syllabus.Proofs.Site.History
import Syllabus.Proofs.Site.UpToDate
import Syllabus.Proofs.Export.ImportOrder
import Syllabus.Proofs.Export.Placement
import Syllabus.Proofs.Program.Courses
import Syllabus.Proofs.Program.LevelGroups
import Syllabus.Proofs.Template.ReachedViews
import Syllabus.Proofs.Template.BuiltInPages
import Syllabus.Proofs.Files.Names
import Syllabus.Proofs.Site.SiteFiles
import Syllabus.Proofs.Files.Rewriting
import Syllabus.Proofs.Store.Upserts
import Syllabus.Proofs.Site.LedgerTruth
import Syllabus.Proofs.Files.Ancestors
import Syllabus.Proofs.Files.Directories
import Syllabus.Proofs.Site.PageAdditions
import Syllabus.Proofs.Site.KeptDigests
import Syllabus.Proofs.Site.Previews
import Syllabus.Proofs.DateText
import Syllabus.Proofs.Program.StoredForm
import Syllabus.Proofs.Store.ReadBack
import Syllabus.Proofs.Export.CoursePages
import Syllabus.Proofs.Store.BuiltPrograms
import Syllabus.Proofs.Files.Spelling
import Syllabus.Proofs.Site.DistinctPages
import Syllabus.Proofs.Site.PageLinks
import Syllabus.Proofs.Site.Isolation
import Syllabus.Proofs.Files.Distinct
import Syllabus.Proofs.Template.FilesBelow
import Syllabus.Proofs.Template.TemplateFiles
import Syllabus.Proofs.Site.Repetition
import Syllabus.Proofs.Template.AnyRendering
import Syllabus.Proofs.Template.MentionedNames
import Syllabus.Proofs.Text.Blanks
import Syllabus.Proofs.Template.CommandGrammar
import Syllabus.Proofs.Template.CommandSpellings
import Syllabus.Proofs.Template.CountedEnds
import Syllabus.Proofs.Template.GuardedRendering
import Syllabus.Proofs.Program.PageWalk
import Syllabus.Proofs.Export.ImageLinks
import Syllabus.Proofs.Export.ImageOrder
import Syllabus.Proofs.Files.NewDirectories
import Syllabus.Proofs.Site.WholeWrites
import Syllabus.Proofs.Site.FailedRuns
import Syllabus.Proofs.Site.LineEnds
import Syllabus.Proofs.Template.UnclosedBlocks
import Syllabus.Proofs.Template.MatchingEnds
import Syllabus.Proofs.Template.ListedOrder
import Syllabus.Proofs.Store.WholeSaves
import Syllabus.Proofs.Files.Additions
import Syllabus.Proofs.Text.ByteOrder
import Syllabus.Proofs.Store.Listings
