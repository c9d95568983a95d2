import FlipperBack.Effects.KeyedTable
import FlipperBack.Effects.Pool
import FlipperBack.Effects.Prog
import FlipperBack.Effects.Runs
import FlipperBack.Domain.Pseudo
import FlipperBack.Infrastructure.Persist
import FlipperBack.Infrastructure.RedisCodec
import FlipperBack.Infrastructure.World
import FlipperBack.UseCase.Borne
import FlipperBack.UseCase.HandleMqttEvent
import FlipperBack.System.Step
import FlipperBack.System.Acts
import FlipperBack.System.Refinement
import FlipperBack.System.Invariants
import FlipperBack.System.Interleaving
import FlipperBack.Properties.StatusTable
import FlipperBack.Properties.Replay
import FlipperBack.Properties.ClientView
import FlipperBack.Properties.Countdown
import FlipperBack.Properties.FlushContent
import FlipperBack.Properties.FlushFaults
import FlipperBack.Properties.GameOver
import FlipperBack.Properties.Navigation
import FlipperBack.Properties.OneGame
import FlipperBack.Properties.Serial
import FlipperBack.Effects.Expiry
import FlipperBack.Infrastructure.TimedWorld
import FlipperBack.Properties.BufferExpiry
import FlipperBack.Properties.FitsColumns
import FlipperBack.Properties.Readable
import FlipperBack.Properties.ScreenMessages
import FlipperBack.Properties.HubDelivery
import FlipperBack.Properties.HubOrder
import FlipperBack.Properties.Convergence
import FlipperBack.Properties.OneStart
import FlipperBack.Properties.BorneBus
import FlipperBack.Properties.LateRelay
import FlipperBack.Properties.Dispatch
import FlipperBack.Properties.SessionsApart
import FlipperBack.Properties.Stores
import FlipperBack.Properties.CommandByCommand
import FlipperBack.Properties.KeysExpire
import FlipperBack.Properties.GameFaults
import FlipperBack.Properties.StartFaults
import FlipperBack.Properties.Scores
import FlipperBack.Properties.FinishedGames
import FlipperBack.Properties.OnePlayer
import FlipperBack.Properties.NewPlayer
import FlipperBack.Infrastructure.Queries
import FlipperBack.UseCase.History
import FlipperBack.UseCase.Reads
import FlipperBack.Effects.Progress
import FlipperBack.Effects.Yields
import FlipperBack.System.RestFlow
import FlipperBack.System.RedisExecutions
import FlipperBack.System.Answers
import FlipperBack.System.Facts
import FlipperBack.System.Works
import FlipperBack.Properties.Leaderboard
import FlipperBack.Properties.Records
import FlipperBack.Python.UpperAscii
import FlipperBack.Python.JsonReads
import FlipperBack.Effects.Atomic
import FlipperBack.Properties.Pseudos
import FlipperBack.Properties.EventRows
import FlipperBack.Effects.Leases
import FlipperBack.Properties.Connections
import FlipperBack.Transport.Serve
import FlipperBack.Properties.Subscriptions
import FlipperBack.Properties.Pause
import FlipperBack.Properties.NormalPlayers
import FlipperBack.Properties.CanEnd
import FlipperBack.Properties.WayOut
import FlipperBack.Properties.Progress
import FlipperBack.Properties.Told
import FlipperBack.Properties.Ledgers
import FlipperBack.Properties.WholeWorks
import FlipperBack.Properties.Listing
