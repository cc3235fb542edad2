import LineCalc.Main
import LineCalc.Session
import LineCalc.Proofs.Text.Ascii
import LineCalc.Proofs.Token.Layout
import LineCalc.Proofs.Token.Refusal
import LineCalc.Proofs.Token.Ascii
import LineCalc.Proofs.Expr.Parsing
import LineCalc.Proofs.Expr.Cells
import LineCalc.Proofs.Expr.Kinds
import LineCalc.Proofs.Expr.Levels
import LineCalc.Proofs.Expr.InOrder
import LineCalc.Proofs.Expr.Completed
import LineCalc.Proofs.Expr.Integers
import LineCalc.Proofs.Expr.Balance
import LineCalc.Proofs.Expr.Groups
import LineCalc.Proofs.Expr.Partners
import LineCalc.Proofs.Expr.Stripping
import LineCalc.Proofs.Expr.Root
import LineCalc.Proofs.Expr.Splits
import LineCalc.Proofs.Expr.Listing
import LineCalc.Proofs.Expr.Ascii
import LineCalc.Proofs.Value.Order
import LineCalc.Proofs.Value.Legible
import LineCalc.Proofs.Number.Numeral
import LineCalc.Proofs.Json.Rendered
import LineCalc.Proofs.Line.Compose
import LineCalc.Proofs.Line.Written
import LineCalc.Proofs.Line.Captured
import LineCalc.Proofs.Line.Agreement
import LineCalc.Proofs.Line.Unreached
import LineCalc.Proofs.Line.Position
import LineCalc.Proofs.Line.Lossless
import LineCalc.Proofs.Line.Digits
import LineCalc.Proofs.Line.Ascii
import LineCalc.Proofs.Settings.Section
import LineCalc.Proofs.Settings.Accepted
import LineCalc.Proofs.Session.Again
import LineCalc.Proofs.Dialogue.Course
import LineCalc.Proofs.Dialogue.Joined
