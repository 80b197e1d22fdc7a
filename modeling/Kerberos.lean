import Kerberos.Proof.Chains
import Kerberos.Proof.ReplayTable
import Kerberos.Proof.CacheOnce
import Kerberos.Proof.LocalOnce
import Kerberos.Proof.Authentication
import Kerberos.Proof.CMS
import Kerberos.Proof.Backup
import Kerberos.Proof.KeyLifecycle
import Kerberos.Proof.UpdateLog
import Kerberos.Proof.UlogErrors
import Kerberos.Proof.UlogRun
import Kerberos.Proof.GSSServers
import Kerberos.Proof.KeyVersions
import Kerberos.Proof.References
import Kerberos.Proof.PolicyCheck
import Kerberos.Proof.Command
import Kerberos.Proof.Identity
import Kerberos.Proof.FileReplay
import Kerberos.Proof.Transited
import Kerberos.Proof.Canonical
import Kerberos.Proof.Framing
import Kerberos.Proof.CTS
import Kerberos.Proof.Lookaside
import Kerberos.Proof.AuthData
import Kerberos.Proof.IOV
import Kerberos.Proof.Sequencing
import Kerberos.Proof.Downgrade
import Kerberos.Proof.KDCCertificate
import Kerberos.Proof.Lockout
import Kerberos.Proof.MemoryCache
import Kerberos.Proof.Keytab
import Kerberos.Proof.FileCache
import Kerberos.Proof.IncrementalXDR
import Kerberos.Proof.SelectEType
import Kerberos.Proof.KCM
