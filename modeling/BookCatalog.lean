import BookCatalog.Main
import BookCatalog.Proofs.AnchorIndependence
import BookCatalog.Proofs.Blanks
import BookCatalog.Proofs.Book.Confinement
import BookCatalog.Proofs.Book.SpineOrder
import BookCatalog.Proofs.Chapter.Faults
import BookCatalog.Proofs.Chapter.Grammar
import BookCatalog.Proofs.Chapter.Headings
import BookCatalog.Proofs.Chapter.LooseText
import BookCatalog.Proofs.Chapter.Renderable
import BookCatalog.Proofs.ChapterNames
import BookCatalog.Proofs.ImageNames
import BookCatalog.Proofs.SectionLinks
import BookCatalog.Proofs.SlugPieces
import BookCatalog.Proofs.AnchorHistory
import BookCatalog.Proofs.FileRewrites
import BookCatalog.Proofs.Book.Repetition
import BookCatalog.Proofs.JsonReading
import BookCatalog.Proofs.MarkupReading
import BookCatalog.Proofs.Settings.Assignments
import BookCatalog.Proofs.Settings.Layers
import BookCatalog.Proofs.Chapter.CellText
import BookCatalog.Proofs.FormatHistory
import BookCatalog.Proofs.LeavingLinks
import BookCatalog.Proofs.Chapter.Admonitions
import BookCatalog.Proofs.Chapter.Definitions
import BookCatalog.Proofs.DocumentIds
import BookCatalog.Proofs.Markdown.Listings
import BookCatalog.Proofs.Markdown.SingleLines
import BookCatalog.Proofs.ReadingOrder
import BookCatalog.Proofs.Book.ImageCopies
import BookCatalog.Proofs.DetectionOrder
import BookCatalog.Proofs.Transforms
import BookCatalog.Proofs.TableOfContents
import BookCatalog.Proofs.CommandLine.Inspection
import BookCatalog.Proofs.CollapsedTexts
import BookCatalog.Proofs.CommandLine.UsualCommand
