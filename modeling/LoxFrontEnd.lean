import LoxFrontEnd.Main
import LoxFrontEnd.Function.Workspace
import LoxFrontEnd.Strict
import LoxFrontEnd.Proofs.Lines
import LoxFrontEnd.Proofs.Layout
import LoxFrontEnd.Proofs.Blanking
import LoxFrontEnd.Proofs.Concatenation
import LoxFrontEnd.Proofs.Dump
import LoxFrontEnd.Proofs.Nesting
import LoxFrontEnd.Proofs.Prompt
import LoxFrontEnd.Proofs.Renaming
import LoxFrontEnd.Proofs.FileText
import LoxFrontEnd.Proofs.Appending
import LoxFrontEnd.Proofs.CarriageReturn
import LoxFrontEnd.Proofs.Insertion
import LoxFrontEnd.Proofs.Progress
import LoxFrontEnd.Proofs.Grid
import LoxFrontEnd.Proofs.NearestValue
import LoxFrontEnd.Proofs.NumberLiteral
import LoxFrontEnd.Proofs.JournalRuns
import LoxFrontEnd.Proofs.NodeHistory
import LoxFrontEnd.Proofs.SharedLists
import LoxFrontEnd.Proofs.TokenIdentity
import LoxFrontEnd.Proofs.ReservedWord
import LoxFrontEnd.Proofs.ScriptEnding
import LoxFrontEnd.Proofs.KeptLists
import LoxFrontEnd.Proofs.PassedLists
