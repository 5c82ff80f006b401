import Lojban.Demo
import Lojban.Main
import Lojban.Proofs.Language
import Lojban.Proofs.ManyLines
import Lojban.Proofs.SessionHistory
import Lojban.Proofs.ProgressHistory
import Lojban.Proofs.FileSpans
import Lojban.Proofs.ErrorPlaces
import Lojban.Proofs.LargerLexicon
import Lojban.Proofs.Shift
import Lojban.Proofs.WordCheck
import Lojban.Proofs.JoinedTexts
import Lojban.Proofs.PaddedTexts
import Lojban.Proofs.CharSpans
import Lojban.Proofs.ListReading
import Lojban.Proofs.ListEntries
import Lojban.Proofs.ProgressReports
import Lojban.Proofs.LineProgress
import Lojban.Proofs.GivenText
import Lojban.Proofs.JsonReading
import Lojban.Proofs.TreeDocuments
import Lojban.Proofs.Outlines
import Lojban.Proofs.LogFiles
import Lojban.Proofs.LogLevels
import Lojban.Proofs.LogSetup
import Lojban.Proofs.PathForms
import Lojban.Proofs.CaretRows
import Lojban.Proofs.FailedSetups
