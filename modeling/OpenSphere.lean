import OpenSphere.Audit.Pages
import OpenSphere.Osdst.Dialogue
import OpenSphere.Properties.Activity
import OpenSphere.Properties.Admission
import OpenSphere.Properties.Answers
import OpenSphere.Properties.Arguments
import OpenSphere.Properties.Attach
import OpenSphere.Properties.Avatars
import OpenSphere.Properties.ChangePlans
import OpenSphere.Properties.Cleanup
import OpenSphere.Properties.CliDevices
import OpenSphere.Properties.ClosedModules
import OpenSphere.Properties.Commands
import OpenSphere.Properties.Compatibility
import OpenSphere.Properties.Compensation
import OpenSphere.Properties.Completion
import OpenSphere.Properties.Consumer
import OpenSphere.Properties.Coverage
import OpenSphere.Properties.Credential
import OpenSphere.Properties.Deliveries
import OpenSphere.Properties.Digests
import OpenSphere.Properties.Dispatch
import OpenSphere.Properties.Envelopes
import OpenSphere.Properties.Evidence
import OpenSphere.Properties.ExactlyOnce
import OpenSphere.Properties.Freshness
import OpenSphere.Properties.GitGate
import OpenSphere.Properties.Help
import OpenSphere.Properties.Hints
import OpenSphere.Properties.Invalidation
import OpenSphere.Properties.Invocations
import OpenSphere.Properties.KillSwitch
import OpenSphere.Properties.Limits
import OpenSphere.Properties.LocalIntake
import OpenSphere.Properties.Mail
import OpenSphere.Properties.Merges
import OpenSphere.Properties.Outcomes
import OpenSphere.Properties.Output
import OpenSphere.Properties.Phases
import OpenSphere.Properties.Pods
import OpenSphere.Properties.Refreshes
import OpenSphere.Properties.Replays
import OpenSphere.Properties.Retries
import OpenSphere.Properties.Revisions
import OpenSphere.Properties.Revocation
import OpenSphere.Properties.Roles
import OpenSphere.Properties.Rotation
import OpenSphere.Properties.Schemas
import OpenSphere.Properties.Transition
