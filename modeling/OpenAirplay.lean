import OpenAirplay.Alignment
import OpenAirplay.Announcing
import OpenAirplay.Authentication
import OpenAirplay.ClockRuns
import OpenAirplay.ControlReceiver
import OpenAirplay.Decryption
import OpenAirplay.Divisions
import OpenAirplay.DmapEntries
import OpenAirplay.DriftControl
import OpenAirplay.Exclusion
import OpenAirplay.FlushOrder
import OpenAirplay.FlushTimestamps
import OpenAirplay.FlushedAudio
import OpenAirplay.Framing
import OpenAirplay.Hearing
import OpenAirplay.Identity
import OpenAirplay.LateProgress
import OpenAirplay.Mirroring
import OpenAirplay.NowPlaying
import OpenAirplay.NtpTimestamps
import OpenAirplay.Positions
import OpenAirplay.Probing
import OpenAirplay.Publisher
import OpenAirplay.Redraws
import OpenAirplay.Refusals
import OpenAirplay.Reordering
import OpenAirplay.Replies
import OpenAirplay.Resends
import OpenAirplay.SinkExclusion
import OpenAirplay.StaleScreens
import OpenAirplay.StreamRates
import OpenAirplay.Synchrony
import OpenAirplay.Timing
import OpenAirplay.Transfers
import OpenAirplay.Volume
