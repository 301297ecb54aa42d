import SceneScript.Describe
import SceneScript.Feed.Session
import SceneScript.Json.Printer
import SceneScript.Json.Record
import SceneScript.Report
import SceneScript.Showcase.Player
import SceneScript.Splash
import SceneScript.Proofs.Aside
import SceneScript.Proofs.Turn
import SceneScript.Proofs.Plot
import SceneScript.Proofs.Playing
import SceneScript.Proofs.Course
import SceneScript.Proofs.Performance
import SceneScript.Proofs.Phase
import SceneScript.Proofs.Labels
import SceneScript.Proofs.Staged
import SceneScript.Proofs.Blocks
import SceneScript.Proofs.Sight
import SceneScript.Proofs.Walk
import SceneScript.Proofs.Track
import SceneScript.Proofs.Account
import SceneScript.Proofs.Written
import SceneScript.Proofs.Cancel
import SceneScript.Proofs.Curtain
import SceneScript.Proofs.SceneChange
import SceneScript.Proofs.Screen
import SceneScript.Proofs.FadeBack
import SceneScript.Proofs.Desk
import SceneScript.Proofs.Handover
import SceneScript.Proofs.FadeOut
import SceneScript.Proofs.Ticking
import SceneScript.Proofs.Ledger
import SceneScript.Proofs.Rejection
import SceneScript.Proofs.Mishaps
import SceneScript.Proofs.Halting
import SceneScript.Proofs.Toil
import SceneScript.Proofs.Silence
import SceneScript.Proofs.Places
import SceneScript.Proofs.Progress
import SceneScript.Proofs.Stream
import SceneScript.Proofs.Faults
import SceneScript.Proofs.Standing
import SceneScript.Proofs.Causes
import SceneScript.Proofs.Staging
import SceneScript.Proofs.Widgets
import SceneScript.Proofs.Passage
import SceneScript.Proofs.Phrases
import SceneScript.Proofs.Loops
import SceneScript.Proofs.Readings
import SceneScript.Proofs.Pages
import SceneScript.Proofs.Isolation
import SceneScript.Proofs.Resolution
import SceneScript.Proofs.Blends
import SceneScript.Proofs.Flashing
import SceneScript.Proofs.Tinting
import SceneScript.Proofs.Unveiling
import SceneScript.Proofs.Receivers
import SceneScript.Proofs.Dialogue
import SceneScript.Proofs.Stock
import SceneScript.Proofs.Harbour
import SceneScript.Proofs.Aboard
import SceneScript.Proofs.Voyage
import SceneScript.Proofs.Crossing
import SceneScript.Proofs.Environment
import SceneScript.Proofs.Handles
import SceneScript.Proofs.Logos
