import HeroPage.Controller
import HeroPage.Content
import HeroPage.VisualState.Written
import HeroPage.Easing.Written
import HeroPage.Fault
import HeroPage.Stage.Run
import HeroPage.Page.View
import HeroPage.Proofs.Stage.Shown
import HeroPage.Proofs.Stage.SettledOnce
import HeroPage.Proofs.Stage.Alone
import HeroPage.Proofs.Stage.Calls
import HeroPage.Proofs.Controller.Course
import HeroPage.Proofs.Transition.Ends
import HeroPage.Proofs.Content.Accepted
import HeroPage.Proofs.Stage.Resting
import HeroPage.Proofs.Stage.Degraded
import HeroPage.Proofs.Stage.Departure
import HeroPage.Proofs.VisualState.Reread
import HeroPage.Proofs.Stage.Grace
import HeroPage.Proofs.Controller.Frames
import HeroPage.Proofs.Controller.Approach
import HeroPage.Proofs.Controller.Redundant
import HeroPage.Proofs.VisualState.Style
import HeroPage.Proofs.Transition.Settings
import HeroPage.Proofs.Page.Links
