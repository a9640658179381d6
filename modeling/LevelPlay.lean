import LevelPlay.IdMap.Lemmas
import LevelPlay.Main
import LevelPlay.Proofs.Engine.History
import LevelPlay.Proofs.Import.Expansion
import LevelPlay.Proofs.Level.Integrity
import LevelPlay.Proofs.Level.Leniency
import LevelPlay.Proofs.Import.Depth
import LevelPlay.Proofs.Engine.Budget
import LevelPlay.Proofs.Engine.Fairness
import LevelPlay.Proofs.Import.Cycle
import LevelPlay.Proofs.Level.Triangles
import LevelPlay.Proofs.Level.Coverage
import LevelPlay.Proofs.Engine.Sleep
import LevelPlay.Proofs.Engine.Session
import LevelPlay.Proofs.Engine.Soundness
import LevelPlay.Proofs.Level.Layout
import LevelPlay.Proofs.Playback.Trace
import LevelPlay.Proofs.Engine.Absence
import LevelPlay.Proofs.Engine.Command
import LevelPlay.Proofs.Engine.Rounds
import LevelPlay.Proofs.Engine.Faults
import LevelPlay.Proofs.Engine.Arguments
import LevelPlay.Proofs.Engine.Lineage
import LevelPlay.Proofs.Playback.Launches
import LevelPlay.Proofs.Engine.Forwarding
import LevelPlay.Proofs.Token.Spelling
import LevelPlay.Proofs.Level.Definitions
import LevelPlay.Proofs.Segment.Index
import LevelPlay.Proofs.Import.Outline
import LevelPlay.Proofs.Import.Failure
import LevelPlay.Proofs.Level.Baking
import LevelPlay.Proofs.Value.EntryOrder
import LevelPlay.Proofs.Value.WellFormed
import LevelPlay.Proofs.Value.Setters
import LevelPlay.Proofs.Line.Cleaning
import LevelPlay.Proofs.Import.Declared
import LevelPlay.Proofs.Token.References
import LevelPlay.Proofs.Value.Insertion
import LevelPlay.Proofs.Value.Matching
import LevelPlay.Proofs.Decimal.Conversion
