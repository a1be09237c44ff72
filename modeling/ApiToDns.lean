import ApiToDns.Py.Str
import ApiToDns.Lib.Prog
import ApiToDns.Py.Re
import ApiToDns.Py.IpAddress
import ApiToDns.Exceptions
import ApiToDns.RecordTypes
import ApiToDns.Py.Json
import ApiToDns.Schemas
import ApiToDns.Mutation
import ApiToDns.RecordApi
import ApiToDns.RecordMap
import ApiToDns.Serve
import ApiToDns.Lib.Runs
import ApiToDns.Sequential
import ApiToDns.CloudflareSync
import ApiToDns.Concurrent
import ApiToDns.Names
import ApiToDns.Lib.Quoting
import ApiToDns.Plugins.Microsoft
import ApiToDns.Lib.MasterFile
import ApiToDns.Hostnames
import ApiToDns.Plugins.Bind
import ApiToDns.Plugins.DnsPython
import ApiToDns.Published
import ApiToDns.Lib.Table
import ApiToDns.Models
import ApiToDns.Rbac
import ApiToDns.Platform
import ApiToDns.Backup.Restore
import ApiToDns.Backup.Effects
import ApiToDns.Backup.Checked
import ApiToDns.Backup.Selected
import ApiToDns.Backup.Build
import ApiToDns.SettingsStore
import ApiToDns.Backup.Boot
import ApiToDns.Backup.Readable
import ApiToDns.Backup.Renewal
import ApiToDns.Accounts
import ApiToDns.Backup.Atomic
import ApiToDns.Admins
import ApiToDns.Escalation
import ApiToDns.Plugins.Azure
import ApiToDns.Sessions
import ApiToDns.Plugins.WinRm
import ApiToDns.Ttl
import ApiToDns.TtlPatch
import ApiToDns.Lib.Outline
import ApiToDns.RateLimit
import ApiToDns.LoginLimit
import ApiToDns.RateRace
import ApiToDns.Backup.Importing
import ApiToDns.Lib.Script
import ApiToDns.LetsEncrypt
import ApiToDns.Challenges
import ApiToDns.Orphans
import ApiToDns.Enrollments
import ApiToDns.Syslog
import ApiToDns.Forwarding
import ApiToDns.Destinations
import ApiToDns.Draining
import ApiToDns.Lib.Octets
import ApiToDns.Streams
import ApiToDns.SslCerts
import ApiToDns.Destinations
import ApiToDns.Bootable
import ApiToDns.CloudflarePlan
import ApiToDns.CloudflareReplace
import ApiToDns.CloudflareEntries
import ApiToDns.CloudflareRepeat
import ApiToDns.CloudflareFailure
import ApiToDns.Plugins.WinRmRetry
import ApiToDns.ReplaceFailure
import ApiToDns.CloudflarePages
import ApiToDns.Lib.Grouping
import ApiToDns.CloudflareBrowse
import ApiToDns.AzureValues
import ApiToDns.StructuredValues
import ApiToDns.Plugins.WinRmAttempts
import ApiToDns.Backup.Sections
import ApiToDns.ApiKeys
import ApiToDns.AddressValues
import ApiToDns.Plugins.WinRmStaging
import ApiToDns.Lib.Checks
import ApiToDns.Backup.Untrusted
import ApiToDns.Backup.EnvFile
import ApiToDns.KeyMigration
import ApiToDns.Restarts
import ApiToDns.Globs
import ApiToDns.Py.CodePoints
import ApiToDns.Redaction
import ApiToDns.JsonReader
import ApiToDns.SyslogMessages
import ApiToDns.FormatMap
import ApiToDns.Alerting
import ApiToDns.Lib.Division
import ApiToDns.BindBrowse
import ApiToDns.JsonLaws
import ApiToDns.Zones.Forms
import ApiToDns.Zones.Requests
import ApiToDns.Zones.Steps
import ApiToDns.Zones.Usable
import ApiToDns.Zones.Enabled
import ApiToDns.Zones.Clients
import ApiToDns.Zones.Kept
import ApiToDns.Zones.Legacy
import ApiToDns.Access.Requests
import ApiToDns.Access.Runs
import ApiToDns.Cooldown
import ApiToDns.Access.Revoked
import ApiToDns.BindOwners
import ApiToDns.Plugins.WinRmReading
