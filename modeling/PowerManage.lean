import PowerManage.Agent.Continuity
import PowerManage.Agent.CredentialStore
import PowerManage.Agent.Credentials
import PowerManage.Agent.Enrollment
import PowerManage.Auth.ClientIP
import PowerManage.Auth.RefreshFamilies
import PowerManage.Auth.RefreshRotation
import PowerManage.Auth.SessionKill
import PowerManage.Auth.Tokens
import PowerManage.Concurrent.Mailbox
import PowerManage.Control.CRLDistributor
import PowerManage.Exec.Capture
import PowerManage.Exec.Readers
import PowerManage.Exec.Runner
import PowerManage.FileSystem.Inodes
import PowerManage.FileSystem.Paths
import PowerManage.FileSystem.Tree
import PowerManage.FileSystem.Update
import PowerManage.Fsafe.Listing
import PowerManage.Fsafe.Manager
import PowerManage.Fsafe.ManagerLaws
import PowerManage.Fsafe.Policy
import PowerManage.Fsafe.PolicyBlocks
import PowerManage.Fsafe.PolicyFiles
import PowerManage.Fsafe.PolicyLaws
import PowerManage.Fsafe.PolicyTransaction
import PowerManage.Fsafe.Protected
import PowerManage.Fsafe.RemoveDir
import PowerManage.Fsafe.Rollback
import PowerManage.Gateway.Renewal
import PowerManage.Go.Time
import PowerManage.Identity.AccessRows
import PowerManage.Identity.Authorization
import PowerManage.Identity.AuthorizationReplay
import PowerManage.Identity.Bootstrap
import PowerManage.Identity.BootstrapReplay
import PowerManage.Identity.EffectiveAccess
import PowerManage.Identity.Effects
import PowerManage.Identity.GroupGrants
import PowerManage.Identity.Groups
import PowerManage.Identity.Registry
import PowerManage.Identity.Schema
import PowerManage.Identity.UserChanges
import PowerManage.Identity.UsersReplay
import PowerManage.Interaction.Script
import PowerManage.Interaction.Stateful
import PowerManage.Pkg.Apt
import PowerManage.Pkg.AptInventory
import PowerManage.Pkg.Dnf
import PowerManage.Pkg.Names
import PowerManage.Pkg.Pacman
import PowerManage.Pki.Certificates
import PowerManage.Pki.DeviceLifecycle
import PowerManage.Pki.LeafShares
import PowerManage.Pki.Leaves
import PowerManage.Pki.Lifecycle
import PowerManage.Pki.LifecycleReplay
import PowerManage.Pki.Publication
import PowerManage.Pki.Rotation
import PowerManage.Pki.RotationManager
import PowerManage.Relational.FenceLogic
import PowerManage.Relational.RelyGuarantee
import PowerManage.Relational.Replay
import PowerManage.Relational.Routines
import PowerManage.Relational.Table
import PowerManage.Sign.Envelopes
import PowerManage.Sign.Freshness
import PowerManage.Store.AppendRuns
import PowerManage.Store.Construction
import PowerManage.Store.Rebuild
import PowerManage.Store.RebuildLaws
import PowerManage.Store.StreamFolds
import PowerManage.Store.Work
