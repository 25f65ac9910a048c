import MongooseIM.Accumulator.NonStrippable
import MongooseIM.AsyncPools.AggregatorOrder
import MongooseIM.AsyncPools.BatchWorker
import MongooseIM.AuthToken.JwtClaims
import MongooseIM.AuthToken.Logins
import MongooseIM.Bosh.Inactivity
import MongooseIM.Bosh.ResponseOrder
import MongooseIM.C2S.RequestOrder
import MongooseIM.C2S.SessionInfo
import MongooseIM.C2S.Tenant
import MongooseIM.Carbons.Delivery
import MongooseIM.Channels.Authorisation
import MongooseIM.Channels.FanOut
import MongooseIM.Component.Registrations
import MongooseIM.ContactSync.LookupQuery
import MongooseIM.Containers.MonitoredMap
import MongooseIM.Csi.BufferOrder
import MongooseIM.Domain.Gaps
import MongooseIM.Domain.LazyRouting
import MongooseIM.Domain.LoaderSync
import MongooseIM.Domain.SubdomainProduct
import MongooseIM.GenMod.SortDeps
import MongooseIM.GlobalDistrib.BounceStorage
import MongooseIM.GlobalDistrib.DomainRegistry
import MongooseIM.GlobalDistrib.Framing
import MongooseIM.GlobalDistrib.JidLookup
import MongooseIM.GlobalDistrib.MappingRuns
import MongooseIM.GlobalDistrib.ServerMgrRuns
import MongooseIM.Hooks.GenHook
import MongooseIM.Inbox.Aggregation
import MongooseIM.JingleSip.IceCandidates
import MongooseIM.JingleSip.MediaRoundTrip
import MongooseIM.JingleSip.SipConsistency
import MongooseIM.Local.IqResponses
import MongooseIM.Mam.Borders
import MongooseIM.Mam.ItemNotFound
import MongooseIM.Mam.MinifiedJid
import MongooseIM.Mam.PrefsAgreement
import MongooseIM.Muc.AdminOwners
import MongooseIM.Muc.AdminRanks
import MongooseIM.Muc.ConfigForm
import MongooseIM.Muc.History
import MongooseIM.Muc.NickIq
import MongooseIM.Muc.Nicks
import MongooseIM.Muc.Occupancy
import MongooseIM.MucLight.DbAgreement
import MongooseIM.MucLight.InviteLimits
import MongooseIM.Offline.Delivery
import MongooseIM.Presence.Visibility
import MongooseIM.Privacy.ListSet
import MongooseIM.Pubsub.CollectionTree
import MongooseIM.Pubsub.ItemBookkeeping
import MongooseIM.Roster.SubscriptionPair
import MongooseIM.S2S.DialbackSteps
import MongooseIM.S2S.InRouting
import MongooseIM.S2S.OutStanzas
import MongooseIM.S2S.TryRegister
import MongooseIM.S2S.Wildcards
import MongooseIM.Scram.CheckDigest
import MongooseIM.SessionManager.Limits
import MongooseIM.SessionManager.SessionList
import MongooseIM.SmartMarkers.Async
import MongooseIM.StreamManagement.Acks
import MongooseIM.StreamManagement.HandoverBalance
import MongooseIM.StreamManagement.Inbound
import MongooseIM.StreamManagement.Outbound
import MongooseIM.StreamManagement.Registry
import MongooseIM.StreamManagement.ResumeIdentity
import MongooseIM.StreamManagement.ResumeTimeout
