import RpiNestApi.Authentication.Removal
import RpiNestApi.Authentication.LostUpdate
import RpiNestApi.Authentication.AdminFrame
import RpiNestApi.Authentication.Tokens
import RpiNestApi.Authentication.PasswordChange
import RpiNestApi.Authentication.AccountTable
import RpiNestApi.Network.Reapply
import RpiNestApi.Authentication.RecordInvariant
import RpiNestApi.Authentication.Requests
import RpiNestApi.Network.LostChange
import RpiNestApi.Network.ErrorPath
import RpiNestApi.Network.ReadBack
import RpiNestApi.Network.Requests
import RpiNestApi.ShellCommand.CommandLine
import RpiNestApi.ShellCommand.Configurations
import RpiNestApi.Device.Metadata
import RpiNestApi.SosReport.Exclusive
import RpiNestApi.Network.Fidelity
import RpiNestApi.SosReport.Cleanup
import RpiNestApi.Datastore.Maintenance
import RpiNestApi.Device.NtpConfig
import RpiNestApi.ShellCommand.ChildProcess
import RpiNestApi.Dbus.Variants
import RpiNestApi.ShellCommand.ConfigurationStatus
import RpiNestApi.ShellCommand.Dpkg
import RpiNestApi.ShellCommand.Df
import RpiNestApi.Device.Status
import RpiNestApi.ShellCommand.Journalctl
import RpiNestApi.OpenApi.Documents
import RpiNestApi.Http.Containment
import RpiNestApi.Http.Revocation
import RpiNestApi.ShellCommand.Authorization
import RpiNestApi.Network.Devices
import RpiNestApi.Device.StatusReads
import RpiNestApi.Authentication.UserList
import RpiNestApi.Device.DateTimeRoundTrip
import RpiNestApi.Device.Syslog
import RpiNestApi.Device.MetadataRegister
import RpiNestApi.Network.Isolation
import RpiNestApi.Network.Confirmation
import RpiNestApi.Network.Composition
import RpiNestApi.Authentication.Concurrent
