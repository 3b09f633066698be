import ChainDecode.Abi.Entry

/-! # Native contracts

The methods of the contracts that every chain has.
-/
namespace ChainDecode.Abi.Builtin

open Entry

def gasContract : List Entry :=
  [method "gas.AllowGas"
      [("from", "Address"), ("target", "Address"), ("price", "BigInteger"),
       ("limit", "BigInteger")],
    query "gas.AllowedGas" "BigInteger" [("from", "Address")],
    method "gas.ApplyInflation" [("from", "Address")],
    method "gas.FixInflationTiming" [("from", "Address"), ("lastInflationDate", "Timestamp")],
    query "gas.GetDaysNextUntilDistribution" "Number" [],
    query "gas.GetDaysUntilDistribution" "Number" [],
    query "gas.GetLastInflationDate" "Timestamp" [],
    query "gas.GetNextInflationDate" "Timestamp" [],
    method "gas.SetEcosystemAddress" [("from", "Address"), ("ecosystemAddress", "Address")],
    method "gas.SetLeftoversAddress" [("from", "Address"), ("leftoversAddress", "Address")],
    method "gas.SpendGas" [("from", "Address")]]

def blockContract : List Entry :=
  [query "block.IsSettled" "Bool" [("hash", "Hash")],
    method "block.SettleTransaction" [("sourceChainAddress", "Address"), ("hash", "Hash")]]

def stakeContract : List Entry :=
  [method "stake.Claim" [("from", "Address"), ("stakeAddress", "Address")],
    query "stake.FuelToStake" "BigInteger" [("fuelAmount", "BigInteger")],
    query "stake.GetAddressVotingPower" "BigInteger" [("address", "Address")],
    query "stake.GetClaimMasterCount" "BigInteger" [("claimDate", "Timestamp")],
    query "stake.GetLastMasterClaim" "Timestamp" [],
    query "stake.GetMasterAddresses" "Address[]" [],
    query "stake.GetMasterClaimDate" "Timestamp" [("claimDistance", "BigInteger")],
    query "stake.GetMasterClaimDateForAddress" "Timestamp" [("target", "Address")],
    query "stake.GetMasterClaimDateFromReference" "Timestamp"
      [("claimDistance", "BigInteger"), ("referenceTime", "Timestamp")],
    query "stake.GetMasterCount" "BigInteger" [],
    query "stake.GetMasterDate" "Timestamp" [("target", "Address")],
    query "stake.GetMasterRewards" "BigInteger" [("from", "Address")],
    query "stake.GetMasterThreshold" "BigInteger" [],
    query "stake.GetRate" "BigInteger" [],
    query "stake.GetStake" "BigInteger" [("address", "Address")],
    query "stake.GetStakeTimestamp" "Timestamp" [("from", "Address")],
    query "stake.GetStorageStake" "BigInteger" [("address", "Address")],
    query "stake.GetTimeBeforeUnstake" "BigInteger" [("from", "Address")],
    query "stake.GetUnclaimed" "BigInteger" [("from", "Address")],
    method "stake.Initialize" [("from", "Address")],
    query "stake.IsMaster" "Bool" [("address", "Address")],
    method "stake.MasterClaim" [("from", "Address")],
    method "stake.Migrate" [("from", "Address"), ("to", "Address")],
    method "stake.Stake" [("from", "Address"), ("stakeAmount", "BigInteger")],
    query "stake.StakeToFuel" "BigInteger" [("stakeAmount", "BigInteger")],
    method "stake.Unstake" [("from", "Address"), ("unstakeAmount", "BigInteger")],
    method "stake.UpdateRate" [("rate", "BigInteger")]]

def swapContract : List Entry :=
  [method "swap.DepositTokens"
      [("from", "Address"), ("symbol", "String"), ("amount", "BigInteger")],
    query "swap.GetRate" "BigInteger"
      [("fromSymbol", "String"), ("toSymbol", "String"), ("amount", "BigInteger")],
    query "swap.IsSupportedToken" "Bool" [("symbol", "String")],
    method "swap.SwapFee"
      [("from", "Address"), ("fromSymbol", "String"), ("feeAmount", "BigInteger")],
    method "swap.SwapReverse"
      [("from", "Address"), ("fromSymbol", "String"), ("toSymbol", "String"),
       ("total", "BigInteger")],
    method "swap.SwapTokens"
      [("from", "Address"), ("fromSymbol", "String"), ("toSymbol", "String"),
       ("amount", "BigInteger")],
    method "swap.SwapTokensV2"
      [("from", "Address"), ("fromSymbol", "String"), ("toSymbol", "String"),
       ("amount", "BigInteger")]]

def accountContract : List Entry :=
  [query "account.HasScript" "Bool" [("address", "Address")],
    query "account.LookUpABI" "Bytes" [("target", "Address")],
    query "account.LookUpAddress" "String" [("target", "Address")],
    query "account.LookUpName" "Address" [("name", "String")],
    query "account.LookUpScript" "Bytes" [("target", "Address")],
    method "account.Migrate" [("from", "Address"), ("target", "Address")],
    method "account.RegisterName" [("target", "Address"), ("name", "String")],
    method "account.RegisterScript"
      [("target", "Address"), ("script", "Bytes"), ("abiBytes", "Bytes")],
    method "account.UnregisterName" [("target", "Address")]]

def consensusContract : List Entry :=
  [method "consensus.AddSignatureTransaction"
      [("from", "Address"), ("subject", "String"), ("signature", "Bytes")],
    method "consensus.CreateTransaction"
      [("from", "Address"), ("subject", "String"), ("transaction", "Transaction"),
       ("listOfUsers", "Address[]")],
    method "consensus.DeleteTransaction" [("addresses", "Address[]"), ("subject", "String")],
    method "consensus.ExecuteTransaction" [("from", "Address"), ("subject", "String")],
    query "consensus.GetAddressesForTransaction" "Address[]"
      [("from", "Address"), ("subject", "String")],
    query "consensus.GetConsensusPoll" "ConsensusPoll" [("subject", "String")],
    query "consensus.GetConsensusPolls" "ConsensusPoll[]" [],
    query "consensus.GetRank" "BigInteger" [("subject", "String"), ("value", "Bytes")],
    query "consensus.GetTransaction" "Transaction" [("from", "Address"), ("subject", "String")],
    query "consensus.HasConsensus" "Bool" [("subject", "String"), ("value", "Bytes")],
    method "consensus.Migrate" [("from", "Address"), ("target", "Address")],
    method "consensus.MultiVote"
      [("from", "Address"), ("subject", "String"), ("choices", "PollVote[]")],
    method "consensus.RemoveVotes" [("from", "Address"), ("subject", "String")],
    method "consensus.SingleVote"
      [("from", "Address"), ("subject", "String"), ("index", "BigInteger")],
    method "consensus.UpdatePollStatus" [("from", "Address"), ("subject", "String")]]

def governanceContract : List Entry :=
  [method "governance.CreateValue"
      [("from", "Address"), ("name", "String"), ("initial", "BigInteger"),
       ("serializedConstraints", "Bytes")],
    query "governance.GetNames" "String[]" [],
    query "governance.GetValue" "BigInteger" [("name", "String")],
    query "governance.GetValues" "GovernancePair[]" [],
    query "governance.HasName" "Bool" [("name", "String")],
    query "governance.HasValue" "Bool" [("name", "String")],
    method "governance.SetValue"
      [("from", "Address"), ("name", "String"), ("value", "BigInteger")]]

def storageContract : List Entry :=
  [method "storage.AddFile"
      [("from", "Address"), ("target", "Address"), ("archiveHash", "Hash")],
    method "storage.AddPermission" [("from", "Address"), ("externalAddr", "Address")],
    query "storage.CalculateStorageSizeForStake" "BigInteger" [("stakeAmount", "BigInteger")],
    method "storage.CreateFile"
      [("target", "Address"), ("fileName", "String"), ("fileSize", "BigInteger"),
       ("contentMerkle", "Bytes"), ("encryptionContent", "Bytes")],
    method "storage.DeleteData" [("target", "Address"), ("key", "Bytes")],
    method "storage.DeleteFile" [("from", "Address"), ("targetHash", "Hash")],
    method "storage.DeletePermission" [("from", "Address"), ("externalAddr", "Address")],
    query "storage.GetAvailableSpace" "BigInteger" [("from", "Address")],
    query "storage.GetFiles" "Hash[]" [("from", "Address")],
    query "storage.GetUsedDataQuota" "BigInteger" [("address", "Address")],
    query "storage.GetUsedSpace" "BigInteger" [("from", "Address")],
    query "storage.HasFile" "Bool" [("target", "Address"), ("hash", "Hash")],
    query "storage.HasPermission" "Bool" [("external", "Address"), ("target", "Address")],
    method "storage.Migrate" [("from", "Address"), ("target", "Address")],
    method "storage.MigratePermission"
      [("target", "Address"), ("oldAddr", "Address"), ("newAddr", "Address")],
    method "storage.WriteData" [("target", "Address"), ("key", "Bytes"), ("value", "Bytes")]]

def validatorContract : List Entry :=
  [method "validator.DemoteValidator" [("from", "Address"), ("target", "Address")],
    query "validator.GetCurrentValidator" "ValidatorEntry" [("tendermintAddress", "String")],
    query "validator.GetIndexOfValidator" "BigInteger" [("address", "Address")],
    query "validator.GetMaxPrimaryValidators" "BigInteger" [],
    query "validator.GetMaxSecondaryValidators" "BigInteger" [],
    query "validator.GetMaxTotalValidators" "Number" [],
    query "validator.GetValidatorByIndex" "ValidatorEntry" [("index", "BigInteger")],
    query "validator.GetValidatorCount" "BigInteger" [("type", "ValidatorType")],
    query "validator.GetValidatorLastActivity" "Timestamp" [("target", "Address")],
    query "validator.GetValidatorType" "ValidatorType" [("address", "Address")],
    query "validator.GetValidators" "ValidatorEntry[]" [],
    method "validator.Migrate" [("from", "Address"), ("to", "Address")],
    method "validator.RegisterValidatorActivity"
      [("from", "Address"), ("validatorAddress", "Address")],
    method "validator.SetValidator"
      [("target", "Address"), ("index", "BigInteger"), ("type", "ValidatorType")],
    method "validator.UpdateValidatorActivity" [("from", "Address")]]

def interopContract : List Entry :=
  [method "interop.AcceptCrossChainTransfer"
      [("from", "Address"), ("platform", "String"), ("identifier", "String")],
    method "interop.BetOnCrossChainSwap"
      [("from", "Address"), ("identifier", "String"), ("platform", "String"),
       ("BetFee", "BigInteger")],
    method "interop.CompleteCrossChainTransfer"
      [("from", "Address"), ("platform", "String"), ("identifier", "String"), ("hash", "Hash")],
    method "interop.CompleteInternalCrossChainTransfer"
      [("from", "Address"), ("platform", "String"), ("identifier", "String")],
    query "interop.GetAllCrossChainBets" "CrossChainTransfer[]" [],
    query "interop.GetAllCrossChainTransfers" "CrossChainTransfer[]" [],
    query "interop.GetAllPlatforms" "PlatformDetails[]" [],
    query "interop.GetAvailableMainSwappers" "PlatformDetails[]"
      [("platform", "String"), ("symbol", "String")],
    query "interop.GetAvailableSwappers" "PlatformDetails[]"
      [("platform", "String"), ("symbol", "String")],
    query "interop.GetBetsForTransaction" "Bet[]" [("crossChainSwap", "CrossChainTransfer")],
    query "interop.GetCrossChainBet" "CrossChainTransfer" [("identifier", "String")],
    query "interop.GetCrossChainSwapAddressToSwap" "String"
      [("from", "Address"), ("platform", "String"), ("symbol", "String")],
    query "interop.GetCrossChainTransfers" "CrossChainTransfer[]" [],
    query "interop.GetCrossChainTransfersForSwapper" "CrossChainTransfer[]"
      [("swapper", "Address")],
    query "interop.GetCrossChainTransfersForUser" "CrossChainTransfer[]" [("from", "Address")],
    query "interop.GetExternalCrossChainTranfersForUser" "CrossChainTransfer[]"
      [("from", "Address")],
    query "interop.GetExternalCrossChainTransfersForSwapper" "CrossChainTransfer[]"
      [("swapper", "Address")],
    query "interop.GetLowestFeeForBet" "BigInteger"
      [("from", "Address"), ("identifier", "String"), ("platform", "String")],
    query "interop.GetPlatformDetailsForAddress" "PlatformDetails"
      [("from", "Address"), ("platform", "String")],
    query "interop.GetPlatformsForAddress" "PlatformDetails[]" [("from", "Address")],
    query "interop.GetSettlement" "Hash" [("platformName", "String"), ("hash", "Hash")],
    query "interop.GetStatus" "InteropTransferStatus"
      [("platformName", "String"), ("hash", "Hash")],
    query "interop.GetSwapsForAddress" "InteropHistory[]" [("address", "Address")],
    query "interop.HasCrossChainTransfer" "Bool" [("from", "Address"), ("hash", "Hash")],
    query "interop.HasPlatformInfo" "Bool" [("from", "Address"), ("platform", "String")],
    method "interop.RegisterAddress"
      [("from", "Address"), ("platform", "String"), ("localAddress", "Address"),
       ("externalAddress", "String")],
    method "interop.RemoveTokenFromPlatform"
      [("from", "Address"), ("platform", "String"), ("symbol", "String")],
    method "interop.SettleTransaction"
      [("from", "Address"), ("platform", "String"), ("chain", "String"), ("hash", "Hash")],
    method "interop.WithdrawTokens"
      [("from", "Address"), ("to", "Address"), ("symbol", "String"), ("value", "BigInteger")]]

def exchangeContract : List Entry :=
  [method "exchange.AddLiquidity"
      [("from", "Address"), ("symbol0", "String"), ("amount0", "BigInteger"),
       ("symbol1", "String"), ("amount1", "BigInteger")],
    method "exchange.AddLiquidityV1"
      [("from", "Address"), ("symbol0", "String"), ("amount0", "BigInteger"),
       ("symbol1", "String"), ("amount1", "BigInteger")],
    method "exchange.BurnNFT" [("from", "Address"), ("nftID", "BigInteger")],
    query "exchange.CalculateEscrowSymbol" "String"
      [("baseToken", "IToken"), ("quoteToken", "IToken"), ("side", "ExchangeOrderSide")],
    method "exchange.CancelOTCOrder" [("from", "Address"), ("uid", "BigInteger")],
    method "exchange.CancelOrder" [("uid", "BigInteger")],
    method "exchange.ClaimFees"
      [("from", "Address"), ("symbol0", "String"), ("symbol1", "String")],
    method "exchange.CreatePool"
      [("from", "Address"), ("symbol0", "String"), ("amount0", "BigInteger"),
       ("symbol1", "String"), ("amount1", "BigInteger")],
    method "exchange.CreatePoolV1"
      [("from", "Address"), ("symbol0", "String"), ("amount0", "BigInteger"),
       ("symbol1", "String"), ("amount1", "BigInteger")],
    method "exchange.DepositTokens"
      [("from", "Address"), ("symbol", "String"), ("amount", "BigInteger")],
    query "exchange.GetDexVerion" "BigInteger" [],
    query "exchange.GetDexVersion" "BigInteger" [],
    query "exchange.GetExchange" "ExchangeProvider" [("address", "Address")],
    query "exchange.GetExchangeID" "Number" [("address", "Address")],
    query "exchange.GetExchangeOrder" "ExchangeOrder" [("uid", "BigInteger")],
    query "exchange.GetExchanges" "ExchangeProvider[]" [],
    query "exchange.GetMinimumQuantity" "BigInteger" [("tokenDecimals", "BigInteger")],
    query "exchange.GetMinimumSymbolQuantity" "BigInteger" [("symbol", "String")],
    query "exchange.GetMinimumTokenQuantity" "BigInteger" [("token", "IToken")],
    query "exchange.GetMyNFTID" "BigInteger"
      [("from", "Address"), ("symbol0", "String"), ("symbol1", "String")],
    query "exchange.GetMyPoolRAM" "LPTokenContentRAM"
      [("from", "Address"), ("symbol0", "String"), ("symbol1", "String")],
    query "exchange.GetOTC" "ExchangeOrder[]" [],
    query "exchange.GetOrderBook" "ExchangeOrder[]"
      [("baseSymbol", "String"), ("quoteSymbol", "String"), ("side", "ExchangeOrderSide")],
    query "exchange.GetOrderBooks" "ExchangeOrder[]"
      [("baseSymbol", "String"), ("quoteSymbol", "String")],
    query "exchange.GetOrderLeftoverEscrow" "BigInteger" [("uid", "BigInteger")],
    query "exchange.GetPool" "Pool" [("symbol0", "String"), ("symbol1", "String")],
    query "exchange.GetPoolBestRoute" "PoolRoute"
      [("entrySymbol", "String"), ("endSymbol", "String"), ("amount", "BigInteger")],
    query "exchange.GetPoolRoute" "PoolRoute"
      [("entrySymbol", "String"), ("endSymbol", "String")],
    query "exchange.GetPools" "Pool[]" [],
    query "exchange.GetRate" "BigInteger"
      [("fromSymbol", "String"), ("toSymbol", "String"), ("amount", "BigInteger")],
    query "exchange.GetTradingVolumeToday" "TradingVolume"
      [("symbol0", "String"), ("symbol1", "String")],
    query "exchange.GetTradingVolumes" "TradingVolume[]"
      [("symbol0", "String"), ("symbol1", "String")],
    query "exchange.IsExchange" "Bool" [("address", "Address")],
    query "exchange.IsSupportedToken" "Bool" [("symbol", "String")],
    method "exchange.Migrate" [],
    method "exchange.MigrateToV3" [],
    method "exchange.OnMigrate" [("from", "Address"), ("to", "Address")],
    method "exchange.RemoveLiquidity"
      [("from", "Address"), ("symbol0", "String"), ("amount0", "BigInteger"),
       ("symbol1", "String"), ("amount1", "BigInteger")],
    method "exchange.SwapFee"
      [("from", "Address"), ("fromSymbol", "String"), ("feeAmount", "BigInteger")],
    method "exchange.SwapFiat"
      [("from", "Address"), ("fromSymbol", "String"), ("toSymbol", "String"),
       ("worth", "BigInteger")],
    method "exchange.SwapReverse"
      [("from", "Address"), ("fromSymbol", "String"), ("toSymbol", "String"),
       ("total", "BigInteger")],
    method "exchange.SwapToken"
      [("buyer", "Address"), ("seller", "Address"), ("baseSymbol", "String"),
       ("quoteSymbol", "String"), ("tokenID", "BigInteger"), ("price", "BigInteger"),
       ("signature", "Bytes")],
    method "exchange.SwapTokens"
      [("from", "Address"), ("fromSymbol", "String"), ("toSymbol", "String"),
       ("amount", "BigInteger")],
    method "exchange.TakeOrder" [("from", "Address"), ("uid", "BigInteger")]]

def privacyContract : List Entry :=
  [query "privacy.PutPrivate" "Number" [("from", "Address"), ("symbol", "String")],
    method "privacy.TakePrivate"
      [("to", "Address"), ("symbol", "String"), ("queueID", "Number"),
       ("signature", "RingSignature")]]

def relayContract : List Entry :=
  [method "relay.CloseChannel" [("from", "Address"), ("channelName", "String")],
    query "relay.GetBalance" "BigInteger" [("from", "Address")],
    query "relay.GetIndex" "BigInteger" [("from", "Address"), ("to", "Address")],
    query "relay.GetKey" "Bytes" [("from", "Address")],
    query "relay.GetTopUpAddress" "Address" [("from", "Address")],
    method "relay.OpenChannel"
      [("from", "Address"), ("to", "Address"), ("chainName", "String"), ("channelName", "String"),
       ("tokenSymbol", "String"), ("amount", "BigInteger"), ("fee", "BigInteger")],
    method "relay.OpenChannel" [("from", "Address"), ("publicKey", "Bytes")],
    method "relay.SettleChannel" [("receipt", "RelayReceipt")],
    method "relay.TopUpChannel" [("from", "Address"), ("count", "BigInteger")]]

def rankingContract : List Entry :=
  [method "ranking.CreateLeaderboard"
      [("from", "Address"), ("name", "String"), ("size", "BigInteger")],
    query "ranking.Exists" "Bool" [("name", "String")],
    query "ranking.GetAddressByIndex" "Address" [("name", "String"), ("index", "BigInteger")],
    query "ranking.GetLeaderboard" "Leaderboard" [("name", "String")],
    query "ranking.GetRows" "LeaderboardRow[]" [("name", "String")],
    query "ranking.GetScoreByAddress" "BigInteger" [("name", "String"), ("target", "Address")],
    query "ranking.GetScoreByIndex" "BigInteger" [("name", "String"), ("index", "BigInteger")],
    query "ranking.GetSize" "BigInteger" [("name", "String")],
    method "ranking.InsertScore"
      [("from", "Address"), ("target", "Address"), ("name", "String"), ("score", "BigInteger")],
    method "ranking.ResetLeaderboard" [("from", "Address"), ("name", "String")]]

def marketContract : List Entry :=
  [method "market.BidToken"
      [("from", "Address"), ("symbol", "String"), ("tokenID", "BigInteger"),
       ("price", "BigInteger"), ("buyingFee", "BigInteger"), ("buyingFeeAddress", "Address")],
    method "market.BuyToken"
      [("from", "Address"), ("symbol", "String"), ("tokenID", "BigInteger")],
    method "market.CancelSale" [("symbol", "String"), ("tokenID", "BigInteger")],
    method "market.EditAuction"
      [("from", "Address"), ("baseSymbol", "String"), ("quoteSymbol", "String"),
       ("tokenID", "BigInteger"), ("price", "BigInteger"), ("endPrice", "BigInteger"),
       ("startDate", "Timestamp"), ("endDate", "Timestamp"), ("extensionPeriod", "BigInteger")],
    query "market.GetAuction" "MarketAuction" [("symbol", "String"), ("tokenID", "BigInteger")],
    query "market.GetAuctions" "MarketAuction[]" [],
    query "market.HasAuction" "Bool" [("symbol", "String"), ("tokenID", "BigInteger")],
    query "market.IsSeller" "Bool" [("target", "Address")],
    method "market.ListToken"
      [("from", "Address"), ("baseSymbol", "String"), ("quoteSymbol", "String"),
       ("tokenID", "BigInteger"), ("price", "BigInteger"), ("endPrice", "BigInteger"),
       ("startDate", "Timestamp"), ("endDate", "Timestamp"), ("extensionPeriod", "BigInteger"),
       ("typeAuction", "BigInteger"), ("listingFee", "BigInteger"),
       ("listingFeeAddress", "Address")],
    method "market.SellToken"
      [("from", "Address"), ("baseSymbol", "String"), ("quoteSymbol", "String"),
       ("tokenID", "BigInteger"), ("price", "BigInteger"), ("endDate", "Timestamp")]]

def friendsContract : List Entry :=
  [method "friends.AddFriend" [("target", "Address"), ("friend", "Address")],
    query "friends.GetFriends" "Address[]" [("target", "Address")],
    method "friends.RemoveFriend" [("target", "Address"), ("friend", "Address")]]

def mailContract : List Entry :=
  [query "mail.DomainExists" "Bool" [("domainName", "String")],
    query "mail.GetDomainUsers" "Address[]" [("domainName", "String")],
    query "mail.GetUserDomain" "String" [("target", "Address")],
    method "mail.JoinDomain" [("from", "Address"), ("domainName", "String")],
    method "mail.LeaveDomain" [("from", "Address"), ("domainName", "String")],
    method "mail.MigrateDomain" [("domainName", "String"), ("target", "Address")],
    method "mail.PushMessage"
      [("from", "Address"), ("target", "Address"), ("archiveHash", "Hash")],
    method "mail.RegisterDomain" [("from", "Address"), ("domainName", "String")],
    method "mail.UnregisterDomain" [("domainName", "String")],
    query "mail.getDomainGroups" "String[]" [("domainName", "String")],
    method "mail.getGroupUsers" [],
    method "mail.joinGroup" [],
    method "mail.leaveGroup" [],
    method "mail.registerGroup" [],
    method "mail.unregisterGroup" []]

def saleContract : List Entry :=
  [method "sale.AddToWhitelist" [("saleHash", "Hash"), ("target", "Address")],
    method "sale.CloseSale" [("from", "Address"), ("saleHash", "Hash")],
    method "sale.EditSalePrice" [("saleHash", "Hash"), ("price", "BigInteger")],
    query "sale.GetLatestSaleHash" "Hash" [],
    query "sale.GetPurchasedAmount" "BigInteger" [("saleHash", "Hash"), ("address", "Address")],
    query "sale.GetSale" "SaleInfo" [("saleHash", "Hash")],
    query "sale.GetSaleParticipants" "Address[]" [("saleHash", "Hash")],
    query "sale.GetSaleWhitelists" "Address[]" [("saleHash", "Hash")],
    query "sale.GetSales" "SaleInfo[]" [],
    query "sale.GetSoldAmount" "BigInteger" [("saleHash", "Hash")],
    query "sale.IsSaleActive" "Bool" [("saleHash", "Hash")],
    query "sale.IsSeller" "Bool" [("target", "Address")],
    query "sale.IsWhitelisted" "Bool" [("saleHash", "Hash"), ("address", "Address")],
    method "sale.Purchase"
      [("from", "Address"), ("saleHash", "Hash"), ("quoteSymbol", "String"),
       ("quoteAmount", "BigInteger")],
    method "sale.RemoveFromWhitelist" [("saleHash", "Hash"), ("target", "Address")]]

end ChainDecode.Abi.Builtin
