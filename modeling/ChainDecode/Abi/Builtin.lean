import ChainDecode.Abi.Builtin.Contracts
import ChainDecode.Abi.Builtin.Interop

/-! # The built-in method table

Signatures of the interop methods and of the native contracts.
-/
namespace ChainDecode.Abi.Builtin

def entries : List Entry :=
  runtimeMethods ++ nexusMethods ++ organizationMethods ++ dataMethods ++ mapMethods ++
    listMethods ++ accountMethods ++ oracleMethods ++ constructors ++ gasContract ++
    blockContract ++ stakeContract ++ swapContract ++ accountContract ++ consensusContract ++
    governanceContract ++ storageContract ++ validatorContract ++ interopContract ++
    exchangeContract ++ privacyContract ++ relayContract ++ rankingContract ++ marketContract ++
    friendsContract ++ mailContract ++ saleContract ++ versionedMethods

def table : Table := .ofEntries entries

end ChainDecode.Abi.Builtin
