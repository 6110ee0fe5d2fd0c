import DocComment.Session
import DocComment.Language
import DocComment.Grammar.Dialect
import DocComment.Build.Report
import DocComment.Proofs.Decoding
import DocComment.Proofs.GlyphPattern
import DocComment.Proofs.TokenPattern
import DocComment.Proofs.Recognition
import DocComment.Proofs.Reads
import DocComment.Proofs.Sentence
import DocComment.Proofs.Acceptance
import DocComment.Proofs.LongestMatch
import DocComment.Proofs.TreeShape
import DocComment.Proofs.Draft
import DocComment.Proofs.Rendering
import DocComment.Proofs.RenderedTree
import DocComment.Proofs.GrammarRules
import DocComment.Proofs.Seal
import DocComment.Proofs.Outline
import DocComment.Proofs.LineBreaks
import DocComment.Proofs.Composition
import DocComment.Proofs.Moving
import DocComment.Proofs.ComposedTree
import DocComment.Proofs.Highlighting
import DocComment.Proofs.Disk
import DocComment.Proofs.BuildSteps
import DocComment.Proofs.LoadCheck
import DocComment.Proofs.Editing
import DocComment.Proofs.SealedFront
import DocComment.Proofs.Terminator
import DocComment.Proofs.UniqueEnd
import DocComment.Proofs.Tiling
import DocComment.Proofs.Skeleton
import DocComment.Proofs.TouchingStar
import DocComment.Proofs.SameLineClosing
import DocComment.Proofs.TagNames
import DocComment.Proofs.SurroundingBlanks
import DocComment.Proofs.Renaming
import DocComment.Proofs.BraceDiscipline
import DocComment.Proofs.VersionParts
import DocComment.Proofs.BuildMessages
import DocComment.Proofs.Reports
