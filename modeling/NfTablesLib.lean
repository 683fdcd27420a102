import NfTablesLib.Types
import NfTablesLib.Sets.KeyType
import NfTablesLib.Sets.ConcatElement
import NfTablesLib.Sets.Element
import NfTablesLib.Store.Basic
import NfTablesLib.Store.Sets
import NfTablesLib.Store.Tables
import NfTablesLib.Store.Calls
import NfTablesLib.Store.Kernel
import NfTablesLib.Store.SetKernel
import NfTablesLib.Properties.WellFormed
import NfTablesLib.Properties.ErrorPaths
import NfTablesLib.Properties.SyncResult
import NfTablesLib.Properties.SetStore
import NfTablesLib.Properties.Mirror
import NfTablesLib.Properties.CreateDelete
import NfTablesLib.Properties.SetMirror
import NfTablesLib.Compiler.L3
import NfTablesLib.Concurrency.Interleaving
