import IceFigures.Main
import IceFigures.Proofs.Alternation
import IceFigures.Proofs.AutomaticCounts
import IceFigures.Proofs.CanonicalDiagram
import IceFigures.Proofs.CanonicalText
import IceFigures.Proofs.CopyPlaces
import IceFigures.Proofs.DistinctText
import IceFigures.Proofs.DrawnShapes
import IceFigures.Proofs.ElementNames
import IceFigures.Proofs.FigureBoxes
import IceFigures.Proofs.FigureWalk
import IceFigures.Proofs.FragmentPlaces
import IceFigures.Proofs.Grammar
import IceFigures.Proofs.GrammarReading
import IceFigures.Proofs.GridLines
import IceFigures.Proofs.Hull
import IceFigures.Proofs.Insertions
import IceFigures.Proofs.ListGrammar
import IceFigures.Proofs.Markup
import IceFigures.Proofs.Messages
import IceFigures.Proofs.MirroredLabels
import IceFigures.Proofs.MirroredLayouts
import IceFigures.Proofs.MirroredWalk
import IceFigures.Proofs.MoveText
import IceFigures.Proofs.Names
import IceFigures.Proofs.NetTurning
import IceFigures.Proofs.Numbering
import IceFigures.Proofs.Numerals
import IceFigures.Proofs.Outcomes
import IceFigures.Proofs.ParameterList
import IceFigures.Proofs.ParameterMeaning
import IceFigures.Proofs.ParameterRange
import IceFigures.Proofs.ParameterText
import IceFigures.Proofs.Passages
import IceFigures.Proofs.PlacedFigures
import IceFigures.Proofs.PlacedMoves
import IceFigures.Proofs.Primitives
import IceFigures.Proofs.Refusals
import IceFigures.Proofs.Relocation
import IceFigures.Proofs.Renaming
import IceFigures.Proofs.RepeatMarks
import IceFigures.Proofs.Replay
import IceFigures.Proofs.Segments
import IceFigures.Proofs.ShortCodes
import IceFigures.Proofs.SoundFigures
import IceFigures.Proofs.StepText
import IceFigures.Proofs.Suffixes
import IceFigures.Proofs.Twizzles
import IceFigures.Proofs.ViewBox
import IceFigures.Proofs.WalkState
import IceFigures.Proofs.WritableMoves
import IceFigures.Proofs.WrittenCounts
