import SimpleCode.Foundations.Computation
import SimpleCode.Foundations.Bytes
import SimpleCode.Foundations.OrderedMap
import SimpleCode.KeepingSettingModify.Utilitys
import SimpleCode.KeepingSettingModify.ModifyRecord
import SimpleCode.KeepingSettingModify.ConfigFile
import SimpleCode.KeepingSettingModify.Keeping
import SimpleCode.KeepingSettingModify.DateTimeOrder
import SimpleCode.Foundations.Retention
import SimpleCode.KeepingSettingModify.Agreement
import SimpleCode.KeepingSettingModify.Dereplication
import SimpleCode.KeepingSettingModify.Loading
import SimpleCode.KeepingSettingModify.LoadTermination
import SimpleCode.KeepingSettingModify.SetRetention
import SimpleCode.KeepingSettingModify.Histories
import SimpleCode.KeepingSettingModify.RecordLine
import SimpleCode.KeepingSettingModify.RoundTrip
import SimpleCode.KeepingSettingModify.Secrecy
import SimpleCode.Foundations.Fifo
import SimpleCode.Messages.MessageQueue
import SimpleCode.Messages.Delivery
import SimpleCode.Threads.ThreadTable
import SimpleCode.Crypto.Des
import SimpleCode.Crypto.DEScppCipher
import SimpleCode.Crypto.DEScppRoundTrip
import SimpleCode.Crypto.DEScCipher
import SimpleCode.Crypto.DEScRoundTrip
import SimpleCode.Crypto.DesAgreement
import SimpleCode.Crypto.Base64c
import SimpleCode.Crypto.Base64cRoundTrip
import SimpleCode.Crypto.Aes
import SimpleCode.Crypto.AesRoundTrip
import SimpleCode.Crypto.AesHex
import SimpleCode.Crypto.RSAText
import SimpleCode.Crypto.RSAKeys
import SimpleCode.Debug.CallTracing
import SimpleCode.Debug.Recording
import SimpleCode.Debug.Totals
import SimpleCode.Debug.PrintedFields
import SimpleCode.Sys.DiskRefresh
import SimpleCode.Algorithm.HashTableMap
import SimpleCode.Algorithm.HashTableSize
import SimpleCode.Algorithm.HtabItems
import SimpleCode.Algorithm.LLMSortLinks
import SimpleCode.Algorithm.StableMergeSort
import SimpleCode.Algorithm.ZSortDuplicates
import SimpleCode.Event.ThreadPool
import SimpleCode.Net.DnsResponse
import SimpleCode.LibRtspClient.Demultiplexing
import SimpleCode.LibRtsp.VideoRoundTrip
import SimpleCode.LibRtsp.Exchange
import SimpleCode.LibRtspClient.RequestOrder
import SimpleCode.KeepingSettingModify.RecordWriter
import SimpleCode.KeepingSettingModify.RecordDeletion
import SimpleCode.KeepingSettingModify.ValueChain
import SimpleCode.KeepingSettingModify.Chronology
import SimpleCode.KeepingSettingModify.RecordLineFailures
import SimpleCode.LogC.MessageBounds
import SimpleCode.Views.PicConversion
import SimpleCode.IpCamera.H264FramedLiveSource
import SimpleCode.HttpFetcher.HeaderBounds
import SimpleCode.HttpFetcher.PageBody
import SimpleCode.LibRtspServer.SendQueue
import SimpleCode.LibRtspServer.DescriptorRuns
import SimpleCode.LibRtspServer.DelayOrder
import SimpleCode.LibRtspServer.RequestHandling
import SimpleCode.LibRtspServer.StreamingTask
import SimpleCode.LibRtspServer.EncodeBase64
import SimpleCode.IpCamera.H264Encode
import SimpleCode.PCap.PCap03
import SimpleCode.Sys.DiskPartition
import SimpleCode.LibRtsp.Packetization
import SimpleCode.LibRtspServer.ReceivedRequest
import SimpleCode.LibRtspClient.ReceivePath
import SimpleCode.LibRtspClient.ResponseBounds
import SimpleCode.LibRtsp.Streaming
import SimpleCode.Crypto.SHA256Digest
