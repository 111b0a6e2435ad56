import MultisigWallet.TransactionSound
import MultisigWallet.ContractProxySound
import MultisigWallet.EncryptionSound
import MultisigWallet.Reference
import MultisigWallet.RecoverySound
import MultisigWallet.ReceiveSound
import MultisigWallet.SubmissionSound
import MultisigWallet.BrowserExtensionSound
import MultisigWallet.OwnerChangeSound
import MultisigWallet.DeploymentSound
import MultisigWallet.IdentityAccess
import MultisigWallet.IdentityAccessSound
import MultisigWallet.SafeCreation
import MultisigWallet.SafeCreationSound
import MultisigWallet.ContentSound
import MultisigWallet.Lib.Journal
import MultisigWallet.RecoveryService
import MultisigWallet.SetUp
import MultisigWallet.SetUpSound
import MultisigWallet.RecoveryServiceSound
import MultisigWallet.RecoveryKeysSound
import MultisigWallet.DBTransactionRepository
import MultisigWallet.DBTransactionRepositorySound
import MultisigWallet.PostProcessing
import MultisigWallet.ConfirmationCount
import MultisigWallet.PostProcessingSound
import MultisigWallet.MessageSound
import MultisigWallet.DBMigration
import MultisigWallet.DBMigrationSound
import MultisigWallet.DBWalletRepository
import MultisigWallet.Portfolio
import MultisigWallet.TokenList
import MultisigWallet.TransactionDomain
import MultisigWallet.PortfolioSound
import MultisigWallet.DBWalletRepositorySound
import MultisigWallet.TokenListSound
import MultisigWallet.TransactionDomainSound
import MultisigWallet.PostProcessingPass
import MultisigWallet.WalletSettings
import MultisigWallet.RecoveryPhraseSound
import MultisigWallet.WalletSettingsSound
import MultisigWallet.EstimationSound
import MultisigWallet.BalanceCheckSound
import MultisigWallet.EventRelaySound
import MultisigWallet.EventPublisherSound
import MultisigWallet.SynchronisationSound
import MultisigWallet.TokenListMergeSound
import MultisigWallet.TokenInputSound
import MultisigWallet.SubmissionOutcome
import MultisigWallet.RecoveryOwners
import MultisigWallet.RecoveryCreationSound
import MultisigWallet.ContractDecoding
import MultisigWallet.ContractRoundTrip
import MultisigWallet.DecodedAddress
import MultisigWallet.SetupRoundTrip
import MultisigWallet.MultiSend
import MultisigWallet.TransferEditing
import MultisigWallet.AddressParsing
import MultisigWallet.TransactionListSound
import MultisigWallet.ExtensionPairingSound
import MultisigWallet.AccountUpdate
import MultisigWallet.SaltNonce
import MultisigWallet.SessionSound
import MultisigWallet.SignatureBounds
import MultisigWallet.OwnerLinkedListSound
import MultisigWallet.AccountUpdateSound
import MultisigWallet.SQLite
import MultisigWallet.SQLiteSound
import MultisigWallet.SQLiteConnections
import MultisigWallet.SQLiteRows
import MultisigWallet.SQLiteResults
import MultisigWallet.FileSystemGuard
import MultisigWallet.FileSystemGuardSound
import MultisigWallet.AddressFormatter
import MultisigWallet.SendInput
import MultisigWallet.SendInputSound
import MultisigWallet.SecureStore
import MultisigWallet.SecureStoreSound
import MultisigWallet.IdentityStore
import MultisigWallet.IdentityStoreSound
import MultisigWallet.OwnerChangeIntro
import MultisigWallet.OwnerChangeIntroSound
import MultisigWallet.Polling
import MultisigWallet.PollingSound
