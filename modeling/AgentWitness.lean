import AgentWitness.KeyedMapProofs
import AgentWitness.BrokerModelProofs
import AgentWitness.TransitionProofs
import AgentWitness.BrokerInvariantProofs
import AgentWitness.BrokerCompletionProofs
import AgentWitness.BrokerCorrelationProofs
import AgentWitness.BrokerTaskProofs
import AgentWitness.BrokerWaitersProofs
import AgentWitness.PairingProofs
import AgentWitness.ServeProofs
import AgentWitness.HandshakeProofs
import AgentWitness.RemoteClientProofs
import AgentWitness.ClientFlowProofs
import AgentWitness.NetworkProofs
import AgentWitness.RejectionProofs
import AgentWitness.BrokerTraceProofs
import AgentWitness.SessionProofs
import AgentWitness.EndToEndProofs
import AgentWitness.ReplicaProofs
import AgentWitness.BrokerChannelProofs
import AgentWitness.RemoteBufferProofs
import AgentWitness.PairingPolicyProofs
import AgentWitness.RevocationProofs
import AgentWitness.PairingFileProofs
import AgentWitness.BrokerTransportProofs
import AgentWitness.LifecycleProofs
import AgentWitness.ReconnectProofs
import AgentWitness.ConnectionProofs
import AgentWitness.ResponseProofs
import AgentWitness.VaultModelProofs
import AgentWitness.VaultDriftProofs
import AgentWitness.VaultKeysProofs
import AgentWitness.WorkerProofs
import AgentWitness.LockingProofs
import AgentWitness.SessionSettingsProofs
import AgentWitness.ReadinessProofs
import AgentWitness.ContextProofs
import AgentWitness.ContextSchemaProofs
import AgentWitness.ContextCodecProofs
import AgentWitness.BrokerLedgerProofs
import AgentWitness.BrokerLoadProofs
import AgentWitness.BrokerOrderProofs
import AgentWitness.BrokerRedeliveryProofs
import AgentWitness.BrokerDeadlineProofs
import AgentWitness.BrokerWakeProofs
import AgentWitness.BrokerGateProofs
import AgentWitness.RequestRouterProofs
import AgentWitness.ConnectionRoutingProofs
import AgentWitness.ListenerProofs
import AgentWitness.AdvertisedProofs
import AgentWitness.AgentRequestProofs
import AgentWitness.ShellProofs
import AgentWitness.CommandProofs
import AgentWitness.ReaderProofs
import AgentWitness.SshWireProofs
import AgentWitness.Base64Proofs
import AgentWitness.JwkProofs
import AgentWitness.SshKeyProofs
import AgentWitness.SshKeyReferenceProofs
import AgentWitness.WebCryptoProofs
import AgentWitness.VaultSigningProofs
import AgentWitness.ClockProofs
import AgentWitness.ConfigProofs
import AgentWitness.SettledProofs
import AgentWitness.BrokerReceiptProofs
import AgentWitness.DaemonProofs
import AgentWitness.DaemonTicketProofs
import AgentWitness.DaemonRunProofs
import AgentWitness.PushProofs
