import Mazdoor.Lib.Run
import Mazdoor.Lib.DocStore
import Mazdoor.Lib.Navigator
import Mazdoor.Step
import Mazdoor.Sources
import Mazdoor.Addressing
import Mazdoor.Creation
import Mazdoor.Lifecycle
import Mazdoor.Location
import Mazdoor.Navigation
import Mazdoor.Registration
import Mazdoor.Functions
import Mazdoor.Isolation
import Mazdoor.Lib.Labelled
import Mazdoor.Lib.Ghost
import Mazdoor.Lib.Interleave
import Mazdoor.Requests
import Mazdoor.Storage
import Mazdoor.Atomicity
import Mazdoor.Form
import Mazdoor.Lib.Loop
import Mazdoor.Lib.Register
import Mazdoor.MapListener
import Mazdoor.MapStates
import Mazdoor.Markers
import Mazdoor.Picture
import Mazdoor.Verification
import Mazdoor.Lib.Shared
import Mazdoor.Lib.Merges
import Mazdoor.Lib.Budget
import Mazdoor.Fleet
import Mazdoor.Ledger
import Mazdoor.Account
import Mazdoor.Owner
import Mazdoor.History
import Mazdoor.Places
import Mazdoor.Filing
import Mazdoor.Records
import Mazdoor.Messages
import Mazdoor.Vetted
import Mazdoor.Work
import Mazdoor.LaborList
import Mazdoor.SignedOut
import Mazdoor.Lib.Matching
import Mazdoor.RequestActions
import Mazdoor.TapRuns
import Mazdoor.Routes
import Mazdoor.Lib.Directory
import Mazdoor.Profiles
